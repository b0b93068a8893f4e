import CodeAtlas.Pattern.CharSet
import CodeAtlas.Text.Find

/-! # Globs

A glob describes a whole path: a star stands for any text, a question mark for any character, and
brackets for a character out of a set. Slashes are characters like all others.
-/
namespace CodeAtlas.Pattern
open Text

inductive GlobPiece where
  | char (c : Char)
  | anyChar
  | anyText
  | set (s : CharSet)
  deriving DecidableEq, Repr

/-- The set between brackets. Ranges in the wrong order are left out. An exclamation mark negates if
it is then in front; a range that begins with it leaves a hyphen and its end. -/
def GlobPiece.ofBrackets (body : List Char) : GlobPiece :=
  let members : List Member := match body with
    | '!' :: rest => .char '!' :: Member.ofText rest
    | _ => Member.ofText body
  match members.filter (·.isOrdered) with
  | .char '!' :: rest => .set ⟨true, rest⟩
  | .range '!' high :: rest => .set ⟨true, .char '-' :: .char high :: rest⟩
  | members => .set ⟨false, members⟩

/-- The pieces of a glob of at most `bound` characters. A bracket that is not closed is an ordinary
character. -/
def globPieces : (bound : Nat) → List Char → List GlobPiece
  | 0, _ => []
  | _, [] => []
  | bound + 1, c :: rest =>
    if c == '*' then .anyText :: globPieces bound rest
    else if c == '?' then .anyChar :: globPieces bound rest
    else if c == '[' then
      match bracketed? rest with
      | some (body, rest) => GlobPiece.ofBrackets body :: globPieces bound rest
      | none => .char c :: globPieces bound rest
    else .char c :: globPieces bound rest

def globMatches : List GlobPiece → List Char → Bool
  | [], text => text.isEmpty
  | .anyText :: pieces, text => (places text).any (globMatches pieces)
  | .anyChar :: pieces, _ :: text => globMatches pieces text
  | .char c :: pieces, d :: text => c == d && globMatches pieces text
  | .set s :: pieces, d :: text => s.contains d && globMatches pieces text
  | _ :: _, [] => false

def isGlobOf (glob path : String) : Bool :=
  let glob := glob.toList
  globMatches (globPieces glob.length glob) path.toList

end CodeAtlas.Pattern
