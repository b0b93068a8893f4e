import CodeAtlas.Config
import CodeAtlas.Pattern.Glob
import CodeAtlas.Scan.IgnoreFile
import CodeAtlas.Text.Ascending

/-! # The source files of a directory

Enumeration takes the regular files below a directory that are not behind a link, leaves out those
in hidden directories and in directories of foreign or built code, and then asks the ignore files
and the patterns of the selection. The answer is in ascending order.
-/
namespace CodeAtlas.Scan
open FileTree

def skippedDirectories : List String :=
  ["node_modules", "vendor", "__pycache__", "dist", "build", "target", "venv"]

def isSkipped (directory : String) : Bool :=
  skippedDirectories.contains directory || Text.startsWith "." directory.toList

/-- What is wanted of a directory. Empty patterns to include stand for all files, an empty ignore
file for none, and no suffixes for all of them. -/
structure Selection where
  included : List String := []
  excluded : List String := []
  nestedIgnore : Bool := false
  ignoreFile : String := ""
  suffixes : Option (List String) := none
  deriving DecidableEq, Repr

def Selection.ofConfig (config : Config) : Selection where
  included := config.included
  excluded := config.excluded
  nestedIgnore := config.nestedIgnore
  ignoreFile := config.ignoreFile

def ignoreFileName : String := ".gitignore"

/-- All that is below the directory at a path and not behind a link, by the names from it on. There
is nothing where the path leads to no directory. -/
def entriesBelow (tree : FileTree) (root : String) : List (List String × Entry) :=
  match tree.locate root with
  | .error _ => []
  | .ok l => tree.below l

def fileNames? : List String × Entry → Option (List String)
  | (names, .file _) => some names
  | _ => none

/-- The regular files below the directory at a path, by their names from it on, in ascending order
of their relative paths. -/
def regularFiles (tree : FileTree) (root : String) : List (List String) :=
  ((entriesBelow tree root).filterMap fileNames?).mergeSort fun a b =>
    Path.ofPieces a ≤ Path.ofPieces b

def directories (tree : FileTree) (root : String) : List (List String) :=
  (entriesBelow tree root).filterMap fun
    | (names, .directory) => some names
    | _ => none

def pathBelow (root : String) (names : List String) : String := Path.join root (Path.ofPieces names)

def isIgnoreFile (names : List String) : Bool := names.getLast? == some ignoreFileName

/-- The paths of the ignore files that count, whether they exist or not. -/
def ignorePaths (tree : FileTree) (root : String) (selection : Selection) : List String :=
  let own := if selection.nestedIgnore then
      ((regularFiles tree root).filter isIgnoreFile).map (pathBelow root)
    else [Path.join root ignoreFileName]
  if selection.ignoreFile.isEmpty then own
  else own ++ [Path.clean (Path.join root selection.ignoreFile)]

/-- The paths that are looked at to find the ignore files of all directories, that of the root among
them, whether there is something or not. -/
def passedOver (tree : FileTree) (root : String) (selection : Selection) : List String :=
  if selection.nestedIgnore then
    ([] :: directories tree root).map fun names => pathBelow root (names ++ [ignoreFileName])
  else []

def ignoreFile? (tree : FileTree) (path : String) : Except Fault (Option IgnoreFile) :=
  if tree.isTooLong path then .error .nameTooLong
  else match tree.read path with
    | .ok content => some <$> IgnoreFile.ofBytes path content
    | .error _ => .ok none

def ignoreFiles (tree : FileTree) (root : String) (selection : Selection) :
    Except Fault (List IgnoreFile) :=
  if (passedOver tree root selection).any tree.isTooLong then .error .nameTooLong
  else (ignorePaths tree root selection).filterMapM (ignoreFile? tree)

/-- Whether a file is wanted by its name and its directories alone. -/
def Selection.admits (selection : Selection) (names : List String) : Bool :=
  (match selection.suffixes with
    | some suffixes => suffixes.contains (Path.suffix (names.getLast?.getD ""))
    | none => true) &&
  !names.dropLast.any isSkipped

def Selection.matches (selection : Selection) (path : String) : Bool :=
  (selection.included.isEmpty || selection.included.any (Pattern.isGlobOf · path)) &&
  !selection.excluded.any (Pattern.isGlobOf · path)

/-- The path of an entry below the directory at `root`, if it is a wanted file. -/
def wanted? (tree : FileTree) (root : String) (selection : Selection) (files : List IgnoreFile)
    (entry : List String × Entry) : Except Fault (Option String) :=
  -- every entry is asked whether it is a file, and a link is followed for that
  if tree.isTooLong (pathBelow root entry.1) then .error .nameTooLong
  else match (fileNames? entry).filter selection.admits with
    | none => .ok none
    | some names =>
      (isIgnored files (Path.components (Path.normalize root) ++ names)).map fun ignored =>
        if ignored then none else (some (Path.ofPieces names)).filter selection.matches

/-- Whether names below a directory are visited no later than others: what stands in a directory
itself comes before what is further down in it. -/
def visitedBefore : List String → List String → Bool
  | [], _ => true
  | _ :: _, [] => false
  | [a], [b] => a ≤ b
  | [_], _ :: _ :: _ => true
  | _ :: _ :: _, [_] => false
  | a :: x :: as, b :: y :: bs => if a = b then visitedBefore (x :: as) (y :: bs) else a ≤ b

/-- All that is below the directory at a path in the order in which it is visited. -/
def visited (tree : FileTree) (root : String) : List (List String × Entry) :=
  -- a directory may list its entries in any order; here it is ascending, and that decides only
  -- which of several faults is met first
  (entriesBelow tree root).mergeSort fun a b => visitedBefore a.1 b.1

def sourceFiles (tree : FileTree) (root : String) (selection : Selection) :
    Except Fault (List String) := do
  let files ← ignoreFiles tree root selection
  let paths ← (visited tree root).filterMapM (wanted? tree root selection files)
  return paths.mergeSort fun a b => a ≤ b

end CodeAtlas.Scan
