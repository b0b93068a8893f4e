import CodeAtlas.Path
import CodeAtlas.Text.Quoted
import CodeAtlas.Text.Utf8

/-! # File trees

A file tree says what stands at each location. A location is the list of names that lead to it from
the top; names are taken as they are, so a location is never behind a link.
-/
namespace CodeAtlas

/-- The names that lead to an entry from the top of the tree. -/
abbrev Location := List String

def Location.path (l : Location) : String := "/" ++ Path.ofPieces l

namespace FileTree

inductive Entry where
  | file (content : List UInt8)
  | directory
  /-- A symbolic link, with the text of its target. -/
  | link (target : String)
  deriving DecidableEq, Repr

inductive Fault where
  | notFound
  | notDirectory
  | isDirectory
  | tooManyLinks
  | nameTooLong
  | nulCharacter
  deriving DecidableEq, Repr

def Fault.description : Fault → String
  | .notFound => "[Errno 2] No such file or directory"
  | .notDirectory => "[Errno 20] Not a directory"
  | .isDirectory => "[Errno 21] Is a directory"
  | .nameTooLong => "[Errno 36] File name too long"
  | .tooManyLinks => "[Errno 40] Too many levels of symbolic links"
  | .nulCharacter => "embedded null byte"

def Fault.message (path : String) (f : Fault) : String :=
  f.description ++ ": " ++ Text.quoted path

end FileTree

structure FileTree where
  entries : List (Location × FileTree.Entry) := []
  deriving DecidableEq, Repr

namespace FileTree

/-- What stands at a location; the top is a directory. -/
def get? (tree : FileTree) (l : Location) : Option Entry :=
  if l.isEmpty then some .directory else tree.entries.lookup l

/-- The tree without a location and all that is below it. -/
def erase (tree : FileTree) (l : Location) : FileTree :=
  ⟨tree.entries.filter fun (other, _) => !l.isPrefixOf other⟩

def insert (tree : FileTree) (l : Location) (e : Entry) : FileTree :=
  ⟨(tree.entries.filter fun (other, _) => other != l) ++ [(l, e)]⟩

/-- Whether all the locations between a directory and the names below it are directories. -/
def opensTo (tree : FileTree) : (directory : Location) → (names : List String) → Bool
  | _, [] => true
  | _, [_] => true
  | directory, name :: rest =>
    tree.get? (directory ++ [name]) == some .directory && opensTo tree (directory ++ [name]) rest

def namesBelow? (tree : FileTree) (directory l : Location) : Option (List String) :=
  if directory.isPrefixOf l then
    match l.drop directory.length with
    | [] => none
    | names => if tree.opensTo directory names then some names else none
  else none

/-- All that is below a directory and not behind a link, in no particular order. -/
def below (tree : FileTree) (directory : Location) : List (List String × Entry) :=
  tree.entries.filterMap fun (l, e) => (tree.namesBelow? directory l).map (·, e)

end FileTree

end CodeAtlas
