import CodeAtlas.FileTree.Walk
import CodeAtlas.Pattern.IgnoreRule

/-! # Ignore files

An ignore file has rules for the paths below its directory, which is taken from the path by which
the file was found, links or not.
-/
namespace CodeAtlas.Scan
open Pattern

inductive Fault where
  | notText
  | brokenLine
  /-- A path is not below the directory of the only ignore file. -/
  | outsideDirectory
  | unusableRule
  /-- A name on the way of a path is too long. -/
  | nameTooLong
  deriving DecidableEq, Repr

/-- The rules of an ignore file and the names of its directory, from the top. -/
structure IgnoreFile where
  directory : Location
  rules : List IgnoreRule
  deriving DecidableEq, Repr

namespace IgnoreFile

def ofBytes (path : String) (content : List UInt8) : Except Fault IgnoreFile :=
  match Text.Utf8.decode? content with
  | none => .error .notText
  | some text => match IgnoreRule.ofText? text with
    | none => .error .brokenLine
    | some rules =>
      .ok { directory := Path.components (Path.normalize (Path.directory path)), rules }

def anyMatches (path : List Char) : List IgnoreRule → Except Fault Bool
  | [] => .ok false
  | rule :: rest => match rule.matches? path with
    | none => .error .unusableRule
    | some true => .ok true
    | some false => anyMatches path rest

/-- Whether the first rule that is about a path ignores it. -/
def firstIgnores (path : List Char) : List IgnoreRule → Except Fault Bool
  | [] => .ok false
  | rule :: rest => match rule.matches? path with
    | none => .error .unusableRule
    | some true => .ok (!rule.negated)
    | some false => firstIgnores path rest

/-- Whether the rules ignore a path, given relative to the directory: the last rule about it
decides. -/
def decides (rules : List IgnoreRule) (path : List Char) : Except Fault Bool :=
  if rules.any (·.negated) then firstIgnores path rules.reverse else anyMatches path rules

/-- Whether the file ignores what is at the given names from the top. A file without rules ignores
nothing; one with rules can only be asked about what is below its directory. -/
def ignores (f : IgnoreFile) (names : Location) : Except Fault Bool :=
  if f.rules.isEmpty then .ok false
  else if f.directory.isPrefixOf names then
    decides f.rules (Path.ofPieces (names.drop f.directory.length)).toList
  else .error .outsideDirectory

end IgnoreFile

/-- Whether one of several ignore files ignores what is at the given names; those that cannot be
asked are passed over. -/
def anyIgnores (names : Location) : List IgnoreFile → Except Fault Bool
  | [] => .ok false
  | f :: rest => match f.ignores names with
    | .error .outsideDirectory => anyIgnores names rest
    | .error fault => .error fault
    | .ok true => .ok true
    | .ok false => anyIgnores names rest

/-- Whether the ignore files in use ignore what is at the given names. An only one has to know an
answer. -/
def isIgnored (files : List IgnoreFile) (names : Location) : Except Fault Bool :=
  match files with
  | [f] => f.ignores names
  | _ => anyIgnores names files

end CodeAtlas.Scan
