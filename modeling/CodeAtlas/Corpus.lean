import CodeAtlas.Log
import CodeAtlas.Scan.SourceFiles

/-! # The corpus

A corpus is the set of files that queries look at: paths relative to a root directory. It holds no
content, so that every query sees the files as they are.
-/
namespace CodeAtlas
open Text

def sniffLength : Nat := 512

/-- Whether a content is binary: a NUL byte stands near its beginning. -/
def isBinary (content : List UInt8) : Bool := (content.take sniffLength).contains 0

def FileTree.readSource (tree : FileTree) (path : String) :
    Except FileTree.Fault (Option (List UInt8)) := do
  let content ← tree.read path
  return if isBinary content then none else some content

structure Corpus where
  root : String
  paths : List String
  ascending : paths.Pairwise (· < ·)
  deriving DecidableEq, Repr

namespace Corpus

def ofPaths (root : String) (paths : List String) : Corpus :=
  ⟨root, Ascending.ofList paths, Ascending.pairwise_ofList paths⟩

def scan (tree : FileTree) (root : String) (selection : Scan.Selection) :
    Except Scan.Fault Corpus := do
  return ofPaths root (← Scan.sourceFiles tree root selection)

def fullPath (c : Corpus) (path : String) : String := Path.clean (Path.join c.root path)

/-- The content of a file, none if it is binary or cannot be read. -/
def read (tree : FileTree) (c : Corpus) (path : String) : Logged (Option (List UInt8)) :=
  match tree.readSource (c.fullPath path) with
  | .ok (some content) => ⟨some content, []⟩
  | .ok none => ⟨none, [.binary path]⟩
  | .error fault => ⟨none, [.unreadable path (c.fullPath path) fault]⟩

def readText (tree : FileTree) (c : Corpus) (path : String) : Logged (Option (List Char)) := do
  return (← c.read tree path).map Utf8.decode

/-- The symbols of a file. A file that is not text or breaks its grammar has none. -/
def symbols (tree : FileTree) (c : Corpus) (path : String) : Logged (List Symbol) := do
  match ← c.read tree path with
  | none => return []
  | some content => match Outline.Registry.builtin.symbols path content with
    | .ok found => return found
    | .error fault => ⟨[], [.unparsable fault]⟩

/-- Why a path cannot be seen from the root: a link on its way leads back to itself. -/
inductive PathFault where
  | linkLoop
  deriving DecidableEq, Repr

/-- A path as the corpus spells it: an absolute path relative to the root, links worked out, and a
relative one with plain slashes. An absolute path outside of the root stays as it is. -/
def relativize (tree : FileTree) (c : Corpus) (target : String) : Except PathFault String :=
  if Path.isAbsolute target then
    if target.toList.contains '\x00' then .ok (Path.clean target)
    else match tree.resolve? target, tree.resolve? c.root with
      | some l, some root =>
        if root.isPrefixOf l then .ok (Path.clean (Path.ofPieces (l.drop root.length)))
        else .ok (Path.clean target)
      | _, _ => .error .linkLoop
  else .ok (Path.clean (String.ofList (target.toList.map fun c => if c = '\\' then '/' else c)))

end Corpus

end CodeAtlas
