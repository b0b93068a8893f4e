import CodeAtlas.Corpus
import CodeAtlas.Go.Outline
import CodeAtlas.Imports.Python
import CodeAtlas.Imports.Script

/-! # The import graph

The files of a corpus and which of them import which others. Imports that lead out of the corpus are
left out.
-/
namespace CodeAtlas
open Text

/-! ## Packages of Go

A package is a directory. The path of an import begins with a place outside of the repository, so
that any number of its leading names may be left out to find the directory.
-/

namespace Imports.Go

/-- The paths that are left of pieces if leading ones are left out. -/
def endings : List String → List String
  | [] => []
  | piece :: rest => Path.ofPieces (piece :: rest) :: endings rest

/-- Whether a file belongs to the package of an import path. Tests belong to none. -/
def isInPackage (importPath path : String) : Bool :=
  !Text.endsWith "_test.go" path.toList &&
    (endings (Path.pieces importPath)).contains (Path.directory path)

def resolve (files : List String) (importPath : String) : List String :=
  (files.filter (isInPackage importPath)).mergeSort fun a b => a ≤ b

end Imports.Go

/-! ## Graphs -/

/-- For some of the files, the files that each of them imports and the files that import it, both in
ascending order. -/
structure ImportGraph where
  edges : List (String × List String)
  importers : List (String × List String)
  deriving DecidableEq, Repr

namespace ImportGraph

def entryAt (table : List (String × List String)) (key : String) : List String :=
  (table.lookup key).getD []

def addTo (key text : String) : List (String × List String) → List (String × List String)
  | [] => [(key, [text])]
  | (other, texts) :: rest =>
    if other = key then (other, Ascending.insert text texts) :: rest
    else (other, texts) :: addTo key text rest

/-- The table of edges seen from their targets. -/
def inverse (edges : List (String × List String)) : List (String × List String) :=
  edges.foldl (fun table (path, targets) => targets.foldl (fun table q => addTo q path table) table)
    []

def ofEdges (edges : List (String × List String)) : ImportGraph := ⟨edges, inverse edges⟩

def ofImports (imports : List (String × List String)) : ImportGraph :=
  ofEdges (imports.map fun (path, targets) => (path, Ascending.ofList targets))

def importsOf (g : ImportGraph) (path : String) : List String := entryAt g.edges path

def importersOf (g : ImportGraph) (path : String) : List String := entryAt g.importers path

inductive Language where
  | go
  | script
  | python
  deriving DecidableEq, Repr

def Language.ofPath? (path : String) : Option Language :=
  let suffix := Path.suffix path
  if suffix == ".go" then some .go
  else if Imports.Script.suffixes.contains suffix then some .script
  else if Imports.Python.suffixes.contains suffix then some .python
  else none

def targets (files : List String) (path : String) (content : List UInt8) : Language → List String
  | .go =>
    let goFiles := files.filter fun f => Path.suffix f == ".go"
    (Go.imports content).flatMap (Imports.Go.resolve goFiles)
  | .script =>
    (Imports.Script.specifiers (Utf8.decode content)).flatMap fun specifier =>
      (Imports.Script.resolve files path specifier).toList
  | .python =>
    let modules := Imports.Python.Modules.ofFiles files
    (Python.importsOfBytes content).flatMap (modules.resolve path)

/-- The other files that a file of a corpus imports, none if it is not a text in a known
language. -/
def importedBy (tree : FileTree) (c : Corpus) (path : String) : Logged (Option (List String)) :=
  match Language.ofPath? path with
  | none => pure none
  | some language => do
    let content ← c.read tree path
    return content.map fun content => (targets c.paths path content language).filter (· != path)

def importsFrom (tree : FileTree) (c : Corpus) :
    List String → Logged (List (String × List String))
  | [] => pure []
  | path :: rest => do
    let imports ← importedBy tree c path
    let others ← importsFrom tree c rest
    return (imports.map (path, ·)).toList ++ others

def build (tree : FileTree) (c : Corpus) : Logged ImportGraph := do
  let imports ← importsFrom tree c c.paths
  Logged.tell (.resolvedImports imports.length)
  return ofImports imports

end ImportGraph

end CodeAtlas
