import CodeAtlas.Pattern.CharSet
import CodeAtlas.Text.Blank
import CodeAtlas.Text.Find
import CodeAtlas.Text.Lines

/-! # Rules of ignore files

A line of an ignore file is a rule on the paths below the directory of the file. It may be negated,
it may be bound to that directory or hold at any depth, and it may be about directories only. A star
stands for any text without a slash, two stars for any text, and a question mark or brackets for one
character.
-/
namespace CodeAtlas.Pattern
open Text

inductive IgnorePiece where
  | char (c : Char)
  | nameChar
  /-- Any text without a slash. -/
  | nameText
  /-- Any text without a line feed. -/
  | pathText
  /-- Nothing, or a text without a line feed and a slash behind it. -/
  | directories
  | set (s : CharSet)
  deriving DecidableEq, Repr

/-- A rule. One whose pieces cannot be used fails only when it is asked about a path. -/
structure IgnoreRule where
  negated : Bool
  anchored : Bool
  directoryOnly : Bool
  pieces? : Option (List IgnorePiece)
  deriving DecidableEq, Repr

/-! ## Reading a rule -/

/-- Two or more stars behind a character other than a slash count as one. -/
def fewerStarsBehind : (bound : Nat) → List Char → List Char
  | 0, text => text
  | _, [] => []
  | bound + 1, c :: rest =>
    if c != '/' && 2 ≤ (rest.takeWhile (· == '*')).length then
      c :: '*' :: fewerStarsBehind bound (rest.dropWhile (· == '*'))
    else c :: fewerStarsBehind bound rest

def fewerStarsBefore : (bound : Nat) → List Char → List Char
  | 0, text => text
  | _, [] => []
  | bound + 1, c :: rest =>
    let stars := ((c :: rest).takeWhile (· == '*')).length
    if 2 ≤ stars then
      match (c :: rest).drop stars with
      | d :: after =>
        if d != '/' then '*' :: d :: fewerStarsBefore bound after
        else '*' :: '*' :: fewerStarsBefore bound (d :: after)
      | [] => ['*', '*']
    else c :: fewerStarsBefore bound rest

/-- The pattern without its trailing spaces, looking at index `i` and before it. A space behind a
backslash stays and the backslash goes; from there on no space is cut off. The first two characters
are never looked at. -/
def trimSpaces (strip : Bool) (pattern : List Char) : (i : Nat) → List Char
  | 0 => pattern
  | 1 => pattern
  | i + 2 =>
    if pattern[i + 2]? != some ' ' then pattern
    else if pattern[i + 1]? == some '\\' then
      trimSpaces false (pattern.take (i + 1) ++ pattern.drop (i + 2)) i
    else trimSpaces strip (if strip then pattern.take (i + 2) else pattern) (i + 1)

/-- The set between brackets: slashes are left out, an exclamation mark in front negates, and
nothing may be out of order. None if nothing is left at all, a fault of the line; a set that cannot
be used is a fault of the rule. -/
def ignoreSet? (body : List Char) : Option (Option CharSet) :=
  let read (negated : Bool) (body : List Char) : Option CharSet :=
    let members := Member.ofText body
    if members.all (·.isOrdered) then some ⟨negated, members⟩ else none
  match body.filter (· != '/') with
  | [] => none
  -- nothing is left to negate: the set is there, but cannot be used
  | ['!'] => some none
  | '!' :: rest => some (read true rest)
  | body => some (read false body)

def ignorePieces? : (bound : Nat) → List Char → Option (List (Option IgnorePiece))
  | 0, _ => some []
  | _, [] => some []
  | bound + 1, '*' :: '*' :: '/' :: rest =>
    (ignorePieces? bound rest).map (some .directories :: ·)
  | bound + 1, '*' :: '*' :: rest => (ignorePieces? bound rest).map (some .pathText :: ·)
  | bound + 1, '*' :: rest => (ignorePieces? bound rest).map (some .nameText :: ·)
  | bound + 1, '?' :: rest => (ignorePieces? bound rest).map (some .nameChar :: ·)
  | bound + 1, '[' :: rest => match bracketed? rest with
    | some (body, rest) => do
      let s ← ignoreSet? body
      return s.map .set :: (← ignorePieces? bound rest)
    | none => (ignorePieces? bound rest).map (some (.char '[') :: ·)
  | bound + 1, c :: rest => (ignorePieces? bound rest).map (some (.char c) :: ·)

def nonempty? (pattern : List Char) : Option (List Char) :=
  if pattern.isEmpty then none else some pattern

/-- The pattern without the marks at its ends, and whether it is bound to the directory. None if
there is nothing left where something has to be. -/
def core? (anchored : Bool) (pattern : List Char) : Option (Bool × List Char) := do
  let pattern ← nonempty? (match pattern with
    | '/' :: rest => rest
    | _ => pattern)
  -- two stars in front take the binding back
  let (anchored, pattern) := match pattern with
    | '*' :: '*' :: rest => (false, rest)
    | _ => (anchored, pattern)
  let pattern ← nonempty? pattern
  let pattern ← nonempty? (match pattern with
    | '/' :: rest => rest
    | _ => pattern)
  let pattern ← nonempty? (if pattern.getLast? == some '/' then pattern.dropLast else pattern)
  match pattern with
  | ['\\'] => none
  | '\\' :: c :: rest =>
    if c == '#' || c == '!' then return (anchored, c :: rest) else return (anchored, pattern)
  | _ => return (anchored, pattern)

def ruleOf? (negated : Bool) (pattern : List Char) : Option (Option IgnoreRule) := do
  let pattern := fewerStarsBehind pattern.length pattern
  let pattern := fewerStarsBefore pattern.length pattern
  if trimEnd pattern == ['/'] then return none
  else
    let last ← pattern.getLast?
    let (anchored, pattern) ← core? (pattern.dropLast.contains '/') pattern
    let pattern := trimSpaces true pattern (pattern.length - 1)
    let pieces ← ignorePieces? pattern.length pattern
    return some { negated, anchored, directoryOnly := last == '/', pieces? := pieces.mapM id }

/-- The rule of a line, if there is one: blank lines and comments have none. None at all if the line
is broken. -/
def IgnoreRule.ofLine? (line : List Char) : Option (Option IgnoreRule) :=
  if (trim line).isEmpty then some none
  else match line with
    | '#' :: _ => some none
    | '!' :: rest => ruleOf? true rest
    | _ => ruleOf? false line

def IgnoreRule.ofText? (text : List Char) : Option (List IgnoreRule) :=
  ((lines (foldNewlines text)).mapM IgnoreRule.ofLine?).map (·.filterMap id)

/-! ## Asking a rule -/

def reachable (passes : Char → Bool) : List Char → List (List Char)
  | [] => [[]]
  | c :: rest => (c :: rest) :: (if passes c then reachable passes rest else [])

def behindSlashes (text : List Char) : List (List Char) :=
  (places text).filterMap fun
    | '/' :: rest => some rest
    | _ => none

def isEnd (text : List Char) : Bool := text == [] || text == ['\n']

/-- Whether pieces describe the beginning of a text, with an ending as told. -/
def ignoreMatches (ending : List Char → Bool) : List IgnorePiece → List Char → Bool
  | [], text => ending text
  | .nameText :: pieces, text => (reachable (· != '/') text).any (ignoreMatches ending pieces)
  | .pathText :: pieces, text => (reachable (· != '\n') text).any (ignoreMatches ending pieces)
  | .directories :: pieces, text =>
    ignoreMatches ending pieces text ||
      (reachable (· != '\n') text).any fun
        | '/' :: rest => ignoreMatches ending pieces rest
        | _ => false
  | .nameChar :: pieces, c :: text => c != '/' && ignoreMatches ending pieces text
  | .char c :: pieces, d :: text => c == d && ignoreMatches ending pieces text
  | .set s :: pieces, d :: text => s.contains d && ignoreMatches ending pieces text
  | _ :: _, [] => false

def IgnoreRule.ending (rule : IgnoreRule) (text : List Char) : Bool :=
  if !rule.directoryOnly then isEnd text
  else match text with
    -- what is below an ignored directory is ignored too, but is not taken back with it
    | '/' :: rest => !rule.negated || isEnd rest
    | _ => !rule.negated && isEnd text

/-- Whether the rule is about a path, given relative to the directory of the file. None if the rule
cannot be used. -/
def IgnoreRule.matches? (rule : IgnoreRule) (path : List Char) : Option Bool := do
  let pieces ← rule.pieces?
  let starts := if rule.anchored then [path] else path :: behindSlashes path
  return starts.any (ignoreMatches rule.ending pieces)

end CodeAtlas.Pattern
