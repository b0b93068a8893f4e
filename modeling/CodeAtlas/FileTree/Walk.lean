import CodeAtlas.FileTree.Basic

/-! # Where paths lead

Opening a path follows the links on its way, up to a limit on their number. Resolving a path does
the same for as far as there is something, and keeps the rest of the path as it is; so it does where
a link leads back to itself.
-/
namespace CodeAtlas.FileTree

def maxNameLength : Nat := 255

def maxPathLength : Nat := 4095

def maxLinks : Nat := 40

/-- Where the pieces of a path lead from a directory. Links are left to `follow`, which is given the
directory to start from and the pieces that are then to be walked. -/
def walkWith (tree : FileTree) (follow : Location → List String → Except Fault Location) :
    (l : Location) → (pieces : List String) → Except Fault Location
  | l, [] => .ok l
  | l, name :: rest =>
    if tree.get? l != some .directory then .error .notDirectory
    else if name == "" || name == "." then walkWith tree follow l rest
    else if name == ".." then walkWith tree follow l.dropLast rest
    else if maxNameLength < name.utf8ByteSize then .error .nameTooLong
    else match tree.get? (l ++ [name]) with
      | none => .error .notFound
      | some (.link target) =>
        follow (if Path.isAbsolute target then [] else l) (Path.pieces target ++ rest)
      | some _ => walkWith tree follow (l ++ [name]) rest

/-- Where the pieces of a path lead with at most so many links on the way. -/
def walk (tree : FileTree) : (links : Nat) → Location → List String → Except Fault Location
  | 0 => tree.walkWith fun _ _ => .error .tooManyLinks
  | links + 1 => tree.walkWith (walk tree links)

def locate (tree : FileTree) (path : String) : Except Fault Location :=
  if path.toList.contains '\x00' then .error .nulCharacter
  else if maxPathLength < path.utf8ByteSize then .error .nameTooLong
  else tree.walk maxLinks [] (Path.components path)

def lookup (tree : FileTree) (path : String) : Except Fault Entry := do
  match tree.get? (← tree.locate path) with
  | some e => return e
  | none => throw .notFound

def read (tree : FileTree) (path : String) : Except Fault (List UInt8) := do
  match ← tree.lookup path with
  | .file content => return content
  | .directory => throw .isDirectory
  | .link _ => throw .tooManyLinks

/-- Whether a name on the way of an absolute path is too long, so that it cannot be said whether
there is something. -/
def isTooLong (tree : FileTree) (path : String) : Bool :=
  match tree.locate path with
  | .error .nameTooLong => true
  | _ => false

/-! ## Resolving -/

/-- The location of a path with its links worked out, as far as there is something. The links of
`active` are being worked out already: if one of them comes again, the path is left as it is from
there on. Links are left to `follow`, which is told what is active then. -/
def resolveWith (tree : FileTree)
    (follow : List Location → Location → List String → Except String Location)
    (active : List Location) : (l : Location) → (pieces : List String) → Except String Location
  | l, [] => .ok l
  | l, name :: rest =>
    if name == "" || name == "." then resolveWith tree follow active l rest
    else if name == ".." then resolveWith tree follow active l.dropLast rest
    else match tree.get? (l ++ [name]) with
      | some (.link target) =>
        if active.contains (l ++ [name]) then
          -- the path that is left, with the link itself not worked out
          .error (Path.join (Location.path (l ++ [name])) (Path.ofPieces rest))
        else
          match follow ((l ++ [name]) :: active) (if Path.isAbsolute target then [] else l)
              (Path.pieces target) with
          | .ok l => resolveWith tree follow active l rest
          | .error path => .error (Path.join path (Path.ofPieces rest))
      | _ => resolveWith tree follow active (l ++ [name]) rest

/-- The location of a path with its links worked out, at most so many of them inside of one another.
If one of them comes inside of itself, the path that is left. -/
def resolveFrom (tree : FileTree) :
    (depth : Nat) → List Location → Location → List String → Except String Location
  | 0 => tree.resolveWith fun _ l pieces => .error (Path.join l.path (Path.ofPieces pieces))
  | depth + 1 => tree.resolveWith (resolveFrom tree depth)

/-- The location that an absolute path means, whether there is something or not; none if links on
its way lead back to themselves. How deep calls may nest is no part of the model: a thousand links
inside of one another are worked out like two. -/
def resolve? (tree : FileTree) (path : String) : Option Location :=
  -- with more links inside of one another than there are entries, one of them comes twice
  match tree.resolveFrom tree.entries.length [] [] (Path.components path) with
  | .ok l => some l
  -- the path that is left may still lead somewhere, by the double dots in it
  | .error path => match tree.locate (Path.normalize path) with
    | .error .tooManyLinks => none
    | _ => some (Path.components (Path.normalize path))

/-! ## Changes -/

/-- The location of a directory that a path leads to. Directories that are missing are made. -/
def makeDirectories (tree : FileTree) (l : Location) :
    (names : List String) → Except Fault (FileTree × Location)
  | [] => .ok (tree, l)
  | name :: rest => match tree.walk maxLinks l [name] with
    | .ok l => makeDirectories tree l rest
    | .error .notFound =>
      makeDirectories (tree.insert (l ++ [name]) .directory) (l ++ [name]) rest
    | .error f => .error f

def put (tree : FileTree) (path : String) (e : Entry) : Except Fault FileTree := do
  let names := Path.components path
  let (tree, l) ← tree.makeDirectories [] names.dropLast
  let last := match names.getLast? with
    | some name => l ++ [name]
    | none => l
  match tree.get? last, e with
  | some .directory, .directory => return tree
  -- a file is written through a link
  | some (.link _), .file _ =>
    match tree.locate path with
    | .ok target => return tree.insert target e
    | .error _ => return tree
  | _, _ => return tree.insert last e

def remove (tree : FileTree) (path : String) : Except Fault FileTree := do
  let names := Path.components path
  let l ← tree.walk maxLinks [] names.dropLast
  match names.getLast? with
  | some name =>
    if (tree.get? (l ++ [name])).isSome then return tree.erase (l ++ [name]) else throw .notFound
  | none => throw .isDirectory

end CodeAtlas.FileTree
