import CodeAtlas.FileTree.Walk
import CodeAtlas.Path
import CodeAtlas.Record
import CodeAtlas.Text.Utf8
import CodeAtlas.Toml

/-! # Configuration

What a repository may decide about its queries: which files are looked at, and how far a query goes
if the caller does not say. It is a TOML file; every field has a default, and no other field is
allowed.
-/
namespace CodeAtlas

/-- The decisions of a repository. An empty list of included patterns stands for all files. -/
structure Config where
  included : List String := []
  excluded : List String := []
  /-- Whether the ignore files of all directories count, or that of the root only. -/
  nestedIgnore : Bool := false
  /-- A further ignore file, relative to the root; empty for none. -/
  ignoreFile : String := ".refmapignore"
  maxResults : Int := 50
  maxDepth : Int := 3
  deriving DecidableEq, Repr

inductive ConfigFault where
  | nameTooLong
  | notText
  | tooManyDigits
  | tooDeep
  /-- Its text is no document, for the reason given. -/
  | malformed (reason : String)
  /-- Its values are not those of a configuration, as the report says. -/
  | refused (problems : List Record.Problem) (report : String)
  deriving DecidableEq, Repr

namespace ConfigFault

def message (path : String) : ConfigFault → String
  | .nameTooLong => FileTree.Fault.nameTooLong.message path
  | .notText => "Invalid UTF-8 in " ++ path
  | .tooManyDigits => "Too many digits in " ++ path
  | .tooDeep => "Too many brackets inside of one another in " ++ path
  | .malformed reason => "Invalid TOML in " ++ path ++ ": " ++ reason
  | .refused _ report => "Invalid config in " ++ path ++ ": " ++ report

/-- Whether the fault is one that is expected of a configuration file. -/
def isExpected : ConfigFault → Bool
  | .malformed _ => true
  | .refused _ _ => true
  | _ => false

end ConfigFault

namespace Config
open Record

def fileName : String := "refmap.toml"

/-- Whether a path stays below the directory that it is relative to. -/
def staysInside (path : String) : Bool :=
  !Path.isAbsolute path && !Text.startsWith "~" path.toList && !(Path.components path).contains ".."

def insidePath : Reader String := fun v =>
  (text v).andThen fun path =>
    if path.isEmpty || staysInside path then .ok path else .fault (.outsideRoot path)

def fieldNames : List String :=
  ["include", "exclude", "nested_gitignore", "ignore_file", "max_results", "max_depth"]

def ofFields (fields : List (String × Value)) : Checked Config :=
  (fun included excluded nestedIgnore ignoreFile maxResults maxDepth _ =>
      { included, excluded, nestedIgnore, ignoreFile, maxResults, maxDepth }) <$>
    withDefault fields "include" (list text) [] <*>
    withDefault fields "exclude" (list text) [] <*>
    withDefault fields "nested_gitignore" truth false <*>
    withDefault fields "ignore_file" insidePath ".refmapignore" <*>
    withDefault fields "max_results" (integerFrom 1) 50 <*>
    withDefault fields "max_depth" (integerFrom 1) 3 <*>
    noOthers fieldNames fields

/-- What the libraries that read and check a file bring in: how deep values may be nested, and the
words of their reports. -/
structure Library where
  hasRoom : Toml.Room
  reason : (text : List Char) → String
  report : (fields : List (String × Value)) → (problems : List Problem) → String
  /-- A report quotes what the check of a field has to say. -/
  quotes : ∀ fields, ∀ problems, ∀ p ∈ problems, ∀ text, p.fault.explanation? = some text →
    text.toList <:+: (report fields problems).toList

def ofBytes (library : Library) (bytes : List UInt8) : Except ConfigFault Config :=
  match Text.Utf8.decode? bytes with
  | none => .error .notText
  | some text => match Toml.parse library.hasRoom text with
    | .error .malformed => .error (.malformed (library.reason text))
    | .error .tooManyDigits => .error .tooManyDigits
    | .error .tooDeep => .error .tooDeep
    | .ok fields => match ofFields fields with
      | .ok config => .ok config
      | .refused problems => .error (.refused problems (library.report fields problems))

def pathIn (root : String) : String := Path.join root fileName

/-- The configuration of a directory: the defaults where there is no file. -/
def load (library : Library) (tree : FileTree) (root : String) : Except ConfigFault Config :=
  if tree.isTooLong (pathIn root) then .error .nameTooLong
  else match tree.read (pathIn root) with
    | .ok content => ofBytes library content
    | .error _ => .ok {}

/-! ## Plain reports -/

/-- What open brackets take of the stack: a call for the value and its bracket, and one more for the
pair in a table. -/
def calls (around : List Char) : Nat :=
  around.foldl (fun count c => count + if c = '[' then 2 else 3) 0

def plainReport (problems : List Problem) : String :=
  let heading := toString problems.length ++ " validation error" ++
    (if problems.length = 1 then "" else "s") ++ " for RefMapConfig"
  heading ++ String.ofList (problems.flatMap fun p => p.lines.toList)

theorem infix_description {fault : Fault} {text : String} (h : fault.explanation? = some text) :
    text.toList <:+: fault.description.toList := by
  have hdescription : fault.description = "Value error, " ++ text := by
    cases fault with
    | outsideRoot path => exact congrArg (fun said => "Value error, " ++ said.getD "") h
    | _ => cases h
  rw [hdescription, String.toList_append]
  exact (List.suffix_append _ _).isInfix

theorem infix_plainReport {problems : List Problem} {p : Problem} {text : String}
    (hp : p ∈ problems) (h : p.fault.explanation? = some text) :
    text.toList <:+: (plainReport problems).toList := by
  obtain ⟨before, after, rfl⟩ := List.append_of_mem hp
  have hlines : text.toList <:+: p.lines.toList := by
    rw [Problem.lines, String.toList_append]
    exact (infix_description h).trans (List.suffix_append _ p.fault.description.toList).isInfix
  have hall : p.lines.toList <:+: (before ++ p :: after).flatMap fun p => p.lines.toList := by
    rw [List.flatMap_append, List.flatMap_cons, ← List.append_assoc]
    exact List.infix_append _ p.lines.toList _
  rw [plainReport, String.toList_append, String.toList_ofList]
  exact (hlines.trans hall).trans (List.suffix_append _ _).isInfix

/-- Reports that say where a problem is and what it is, with a stack of the usual size. -/
def Library.plain : Library where
  hasRoom around _ := calls around ≤ 990
  reason _ := "not a document"
  report _ problems := plainReport problems
  quotes _ _ _ hp _ h := infix_plainReport hp h

end Config

end CodeAtlas
