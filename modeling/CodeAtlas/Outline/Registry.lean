import CodeAtlas.Go.Outline
import CodeAtlas.Outline.Braced
import CodeAtlas.Outline.Indented
import CodeAtlas.Path
import CodeAtlas.Text.Ascending

/-! # Which extractor reads which file

Extractors are registered by file suffix; a later registration of a suffix wins.
-/
namespace CodeAtlas.Outline

inductive Extractor where
  | go
  | braced
  | indented
  /-- By a function of path and content. -/
  | custom (run : String → List UInt8 → List Symbol)

structure SyntaxFault where
  path : String
  deriving DecidableEq, Repr

def SyntaxFault.message (f : SyntaxFault) : String := f.path ++ ": syntax error"

def Extractor.symbols (e : Extractor) (path : String) (content : List UInt8) :
    Except SyntaxFault (List Symbol) :=
  match e with
  | .go => match Go.symbols? content with
    | some found => .ok found
    | none => .error ⟨path⟩
  | .braced => .ok (Braced.symbols content)
  | .indented => .ok (Indented.symbols content)
  | .custom run => .ok (run path content)

structure Registry where
  entries : List (String × Extractor)

namespace Registry

/-- The extractor for a suffix, which is given with its dot. -/
def find? (r : Registry) (suffix : String) : Option Extractor := r.entries.lookup suffix

def register (r : Registry) (e : Extractor) (suffixes : List String) : Registry :=
  ⟨suffixes.map (·, e) ++ r.entries⟩

def suffixes (r : Registry) : List String := Text.Ascending.ofList (r.entries.map Prod.fst)

def builtin : Registry :=
  let r : Registry := ⟨[]⟩
  let r := r.register .go [".go"]
  let r := r.register .braced [".js", ".jsx", ".mjs", ".cjs", ".ts", ".tsx"]
  r.register .indented [".py", ".pyi"]

/-- The symbols of a file, chosen by its suffix; a file of another kind has none. -/
def symbols (r : Registry) (path : String) (content : List UInt8) :
    Except SyntaxFault (List Symbol) :=
  match r.find? (Path.suffix path) with
  | some e => e.symbols path content
  | none => .ok []

end Registry

end CodeAtlas.Outline
