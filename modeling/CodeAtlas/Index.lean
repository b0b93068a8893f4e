import CodeAtlas.Corpus

/-! # The symbol index

All symbols of all files of a corpus, file by file. The index knows where a name is declared first.
-/
namespace CodeAtlas

structure IndexEntry where
  path : String
  symbol : Symbol
  deriving DecidableEq, Repr

structure Index where
  entries : List IndexEntry
  deriving DecidableEq, Repr

namespace Index

def entriesOf (tree : FileTree) (c : Corpus) : List String → Logged (List IndexEntry)
  | [] => pure []
  | path :: rest => do
    let found ← c.symbols tree path
    let others ← entriesOf tree c rest
    return found.map (⟨path, ·⟩) ++ others

def build (tree : FileTree) (c : Corpus) : Logged Index := do
  return ⟨← entriesOf tree c c.paths⟩

def lookup (i : Index) (name : String) : List IndexEntry := i.entries.filter (·.symbol.name == name)

/-- The file and the line of the first declaration of a name whose line is known. -/
def definition? (i : Index) (name : String) : Option (String × Int) :=
  (i.entries.find? fun e => e.symbol.name == name && 0 < e.symbol.line).map fun e =>
    (e.path, e.symbol.line)

end Index

end CodeAtlas
