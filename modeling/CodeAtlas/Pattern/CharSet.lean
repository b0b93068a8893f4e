/-! # Sets of characters in brackets

In a pattern, brackets hold single characters and ranges. The text between the brackets is cut into
members first; what a range with its ends in the wrong order means is up to the kind of pattern.
-/
namespace CodeAtlas.Pattern

inductive Member where
  | char (c : Char)
  | range (low high : Char)
  deriving DecidableEq, Repr

namespace Member

def first : Member → Char
  | char c => c
  | range low _ => low

def isOrdered : Member → Bool
  | char _ => true
  | range low high => low ≤ high

def contains : Member → Char → Bool
  | char c, d => c == d
  | range low high, d => low ≤ d && d ≤ high

/-- The members of a text. A hyphen between two characters makes a range of them. -/
def ofText : List Char → List Member
  | low :: '-' :: high :: rest => range low high :: ofText rest
  | c :: rest => char c :: ofText rest
  | [] => []

end Member

structure CharSet where
  negated : Bool
  members : List Member
  deriving DecidableEq, Repr

def CharSet.contains (s : CharSet) (c : Char) : Bool := s.members.any (·.contains c) != s.negated

/-- The text between an opening bracket, which has been read, and the closing one, and what
follows. A closing bracket at the very beginning is an ordinary character, also behind an
exclamation mark. -/
def bracketed? (text : List Char) : Option (List Char × List Char) :=
  let (mark, rest) := match text with
    | '!' :: rest => (['!'], rest)
    | _ => ([], text)
  let (first, rest) := match rest with
    | ']' :: rest => ([']'], rest)
    | _ => ([], rest)
  match rest.span (· != ']') with
  | (_, []) => none
  | (body, _ :: rest) => some (mark ++ first ++ body, rest)

end CodeAtlas.Pattern
