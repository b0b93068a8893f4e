import CodeAtlas.Text.Blank
import CodeAtlas.Text.CharClass

/-! # Matching at a place and searching

Recognisers take a text and answer what is left of it behind the match. Searching tries a
recogniser at every place in turn.
-/
namespace CodeAtlas.Text

/-- What follows `head` in a text that begins with it. -/
def after? : (head text : List Char) → Option (List Char)
  | [], text => some text
  | _ :: _, [] => none
  | h :: head, c :: text => if h = c then after? head text else none

def literal (head : String) (text : List Char) : Option (List Char) := after? head.toList text

def startsWith (head : String) (text : List Char) : Bool := (literal head text).isSome

def endsWith (tail : String) (text : List Char) : Bool :=
  (after? tail.toList.reverse text.reverse).isSome

def blanks (text : List Char) : Option (List Char) :=
  match text with
  | [] => none
  | c :: rest => if isBlank c then some (trimStart rest) else none

/-- What follows the word and the blanks after it, or the text itself where the word is missing. -/
def skipWord (word : String) (text : List Char) : List Char :=
  ((literal word text).bind blanks).getD text

def word (text : List Char) : Option (List Char × List Char) :=
  match text.span isWordChar with
  | ([], _) => none
  | (found, rest) => some (found, rest)

/-- All the places of a text, from its beginning to its end, as what is left from there on. -/
def places : List Char → List (List Char)
  | [] => [[]]
  | c :: rest => (c :: rest) :: places rest

def search {α : Type} (recognise : List Char → Option α) (text : List Char) : Option α :=
  (places text).findSome? recognise

def cutAt? (sep : Char) (text : List Char) : Option (List Char × List Char) :=
  match text.span (· != sep) with
  | (_, []) => none
  | (before, _ :: behind) => some (before, behind)

/-- Whether `name` stands at this place with an edge of a word on either side of it. `before` is
the character in front of the place. -/
def isWholeAt (name : List Char) (before : Option Char) (text : List Char) : Bool :=
  match after? name text with
  | none => false
  | some rest => isWordEdge before text.head? && isWordEdge (name.getLast?.or before) rest.head?

def mentionsFrom (name : List Char) (before : Option Char) : List Char → Bool
  | [] => isWholeAt name before []
  | c :: rest => isWholeAt name before (c :: rest) || mentionsFrom name (some c) rest

def mentions (name text : List Char) : Bool := mentionsFrom name none text

end CodeAtlas.Text
