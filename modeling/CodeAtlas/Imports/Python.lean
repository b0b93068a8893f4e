import CodeAtlas.Path
import CodeAtlas.Python.Imports

/-! # Imports of Python modules

A module is found by the name that its path gives it, and else by looking for a file beside the
importing one and at the root. An import of names means the modules of these names inside of the
package, or else the package itself.
-/
namespace CodeAtlas.Imports.Python
open CodeAtlas.Python

def suffixes : List String := [".py", ".pyi"]

/-- The files of a corpus, and those of Python by the names of their modules. -/
structure Modules where
  files : List String
  byName : List (String × String)
  deriving DecidableEq, Repr

namespace Modules

/-- The modules among files in ascending order; the first file of a name counts. -/
def ofFiles (files : List String) : Modules where
  files := files
  byName := (files.filter fun path => suffixes.contains (Path.suffix path)).map fun path =>
    (Path.moduleName path, path)

/-- The files that a module may be if its name is not known, best first. -/
def candidates (importerDirectory module : String) : List String :=
  let parts := (Text.splitOn '.' module.toList).map String.ofList
  let own := parts.foldl Path.join importerDirectory
  let top := parts.foldl Path.join ""
  [own ++ ".py", top ++ ".py", Path.join top "__init__.py"].map Path.normalize

def find? (m : Modules) (importerDirectory module : String) : Option String :=
  if module.isEmpty then none
  else (m.byName.lookup module).or
    ((candidates importerDirectory module).find? m.files.contains)

/-- The name of the module that an import of `importer` is about. -/
def baseModule (importer : String) (i : Import) : String :=
  if i.level = 0 then i.module
  else
    let own := Path.moduleName importer
    -- the dots of a package's own file are counted from inside of the package
    let own := if Path.stem importer == "__init__" then own ++ ".__init__" else own
    absoluteModule own i.module i.level

def beginnings {α : Type} (parts : List α) : List (List α) :=
  (List.range parts.length).map fun cut => parts.take (parts.length - cut)

def innermost? (m : Modules) (importerDirectory base : String) : Option String :=
  (beginnings ((Text.splitOn '.' base.toList).map String.ofList)).findSome? fun parts =>
    m.find? importerDirectory (".".intercalate parts)

def resolve (m : Modules) (importer : String) (i : Import) : List String :=
  let base := baseModule importer i
  let directory := Path.directory importer
  let submodules := i.names.filterMap fun name =>
    m.find? directory (if base.isEmpty then name else base ++ "." ++ name)
  -- the package itself is meant only if none of the names is a module in it
  if submodules.isEmpty then (m.innermost? directory base).toList else submodules

end Modules

end CodeAtlas.Imports.Python
