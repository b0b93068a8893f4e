import CodeAtlas.FileTree.Basic
import CodeAtlas.Outline.Registry

/-! # Progress of queries

A query answers a value and tells on the way what it passed over and how far it has come. The log
never changes the value.
-/
namespace CodeAtlas

inductive Event where
  /-- A file of the corpus cannot be opened at its full path. -/
  | unreadable (path fullPath : String) (fault : FileTree.Fault)
  | binary (path : String)
  | unparsable (fault : Outline.SyntaxFault)
  /-- A definition is not where it was said to be. -/
  | staleHint (path : String) (line : Int)
  | expanding (depth : Nat) (names : List String)
  | resolvedImports (files : Nat)
  | indexed (files : Nat) (root : String)
  deriving DecidableEq, Repr

namespace Event

def source : Event → String
  | .unreadable .. => "xref.corpus"
  | .binary _ => "xref.corpus"
  | .unparsable _ => "xref.corpus"
  | .staleHint .. => "xref.refs"
  | .expanding .. => "xref.impact"
  | .resolvedImports _ => "graph.imports"
  | .indexed .. => "cli"

def message : Event → String
  | .unreadable path fullPath fault =>
    "Skipping unreadable file " ++ path ++ ": " ++ fault.message fullPath
  | .binary path => "Skipping binary file " ++ path
  | .unparsable fault => "Skipping unparsable file: " ++ fault.message
  | .staleHint path line => "Ignoring stale definition hint " ++ path ++ ":" ++ toString line
  | .expanding depth names =>
    "Depth " ++ toString depth ++ ": expanding " ++ ", ".intercalate names
  | .resolvedImports files => "Resolved imports for " ++ toString files ++ " files"
  | .indexed files root => "Indexed " ++ toString files ++ " files under " ++ root

def line (e : Event) : String := "DEBUG " ++ e.source ++ ": " ++ e.message ++ "\n"

end Event

/-- A value and what was told on the way to it. -/
structure Logged (α : Type) where
  value : α
  log : List Event := []
  deriving Repr

namespace Logged

variable {α β : Type}

def bind (x : Logged α) (f : α → Logged β) : Logged β :=
  let y := f x.value
  ⟨y.value, x.log ++ y.log⟩

instance : Monad Logged where
  pure a := ⟨a, []⟩
  bind := bind

def tell (e : Event) : Logged Unit := ⟨(), [e]⟩

@[simp] theorem value_pure (a : α) : (pure a : Logged α).value = a := rfl

@[simp] theorem value_bind (x : Logged α) (f : α → Logged β) :
    (x >>= f).value = (f x.value).value := rfl

@[simp] theorem value_map (f : α → β) (x : Logged α) : (f <$> x).value = f x.value := rfl

@[simp] theorem log_pure (a : α) : (pure a : Logged α).log = [] := rfl

@[simp] theorem log_bind (x : Logged α) (f : α → Logged β) :
    (x >>= f).log = x.log ++ (f x.value).log := rfl

end Logged

end CodeAtlas
