import CodeAtlas.Text.Find
import CodeAtlas.Text.Lines

/-! # Path text

Paths are text with slashes between components. The operations here look at the text alone and at
no file system.
-/
namespace CodeAtlas.Path
open Text

def pieces (p : String) : List String := (splitOn '/' p.toList).map String.ofList

def ofPieces (ps : List String) : String := "/".intercalate ps

/-- The components that name something: empty pieces and single dots are left out. -/
def components (p : String) : List String := (pieces p).filter fun c => c != "" && c != "."

/-- The slashes that make a path absolute: exactly two are kept, any other number counts as one. -/
def anchor (p : String) : String :=
  match p.toList with
  | '/' :: '/' :: '/' :: _ => "/"
  | '/' :: '/' :: _ => "//"
  | '/' :: _ => "/"
  | _ => ""

def isAbsolute (p : String) : Bool := startsWith "/" p.toList

/-- The path with slashes collapsed and single dots left out; the empty path is a dot. -/
def clean (p : String) : String :=
  let text := anchor p ++ ofPieces (components p)
  if text == "" then "." else text

def fileName (p : String) : String := (components p).getLast?.getD ""

/-- The file name without its suffix, and the suffix with its dot. The last dot begins the suffix
unless it is the first or the last character. -/
def stemAndSuffix (p : String) : String × String :=
  let name := (fileName p).toList
  let tail := (name.reverse.takeWhile (· != '.')).reverse
  let stem := name.take (name.length - tail.length - 1)
  if tail.length = name.length || tail.isEmpty || stem.isEmpty then (fileName p, "")
  else (String.ofList stem, String.ofList ('.' :: tail))

def suffix (p : String) : String := (stemAndSuffix p).2

def stem (p : String) : String := (stemAndSuffix p).1

/-- The path of the directory: the text before the last slash, without trailing slashes unless it
holds nothing else. -/
def directory (p : String) : String :=
  let head := (p.toList.reverse.dropWhile (· != '/')).reverse
  if head.all (· == '/') then String.ofList head
  else String.ofList (head.reverse.dropWhile (· == '/')).reverse

def join (dir p : String) : String :=
  if isAbsolute p then p
  else if dir == "" || endsWith "/" dir.toList then dir ++ p
  else dir ++ "/" ++ p

/-- One more component behind those of a normal path, which are given in reverse. A double dot
takes the last name away; in front of an absolute path it goes nowhere. -/
def push (absolute : Bool) (done : List String) (c : String) : List String :=
  if c != ".." then c :: done
  else match done with
    | [] => if absolute then [] else [".."]
    | last :: before => if last == ".." then c :: done else before

def resolveDots (absolute : Bool) (cs : List String) : List String :=
  (cs.foldl (push absolute) []).reverse

def normalize (p : String) : String :=
  let text := anchor p ++ ofPieces (resolveDots (anchor p != "") (components p))
  if text == "" then "." else text

/-- The dotted name by which the module in a Python file is imported. Backslashes count as slashes,
and a leading `src` directory is left out. -/
def moduleName (p : String) : String :=
  let slashed := p.toList.map fun c => if c = '\\' then '/' else c
  let parts := ((splitOn '/' slashed).filter (!·.isEmpty)).map String.ofList
  let parts := match parts with
    | "src" :: c :: rest => c :: rest
    | _ => parts
  let parts := match parts.reverse with
    | [] => []
    | last :: before =>
      let name := last.toList
      let cut := if endsWith ".py" name then name.take (name.length - 3)
        else if endsWith ".pyi" name then name.take (name.length - 4)
        else name
      (if String.ofList cut == "__init__" then before else String.ofList cut :: before).reverse
  ".".intercalate parts

end CodeAtlas.Path
