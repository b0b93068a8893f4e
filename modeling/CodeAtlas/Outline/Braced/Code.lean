import CodeAtlas.Text.Blank

/-! # Code, literals and comments on one line

A line of a brace-structured language is code, string literal or comment, character by character.
Literals end with their line; a block comment may stay open. A backslash takes the character
behind it out of play, inside and outside of literals.
-/
namespace CodeAtlas.Outline.Braced
open Text

def isQuote (c : Char) : Bool := c == '\'' || c == '"' || c == '\x60'

/-- The literal that is open behind `c`, given the one that is open in front of it. -/
def nextQuote : Option Char → Char → Option Char
  | some q, c => if c = q then none else some q
  | none, c => if isQuote c then some c else none

inductive Mode where
  /-- Code, or the literal that the given character opened. -/
  | code (quote : Option Char)
  | comment
  deriving DecidableEq, Repr

/-- The characters of a line that are no comment, and whether a block comment is open at its end. -/
def stripFrom : Mode → List Char → List Char × Bool
  | .comment, [] => ([], true)
  | .comment, '*' :: '/' :: rest =>
    -- one space stands in the place of the comment
    let (code, isOpen) := stripFrom (.code none) rest
    (' ' :: code, isOpen)
  | .comment, _ :: rest => stripFrom .comment rest
  | .code _, [] => ([], false)
  | .code quote, '\\' :: c :: rest =>
    let (code, isOpen) := stripFrom (.code quote) rest
    ('\\' :: c :: code, isOpen)
  | .code none, '/' :: '/' :: _ => ([], false)
  | .code none, '/' :: '*' :: rest => stripFrom .comment rest
  | .code quote, c :: rest =>
    let (code, isOpen) := stripFrom (.code (nextQuote quote c)) rest
    (c :: code, isOpen)

def stripComments (line : List Char) : List Char × Bool := stripFrom (.code none) line

def braceWeight (c : Char) : Int := if c = '{' then 1 else if c = '}' then -1 else 0

/-- The braces opened less the braces closed outside of literals. -/
def balanceFrom : Option Char → List Char → Int
  | _, [] => 0
  | quote, '\\' :: _ :: rest => balanceFrom quote rest
  | none, c :: rest => braceWeight c + balanceFrom (nextQuote none c) rest
  | some q, c :: rest => balanceFrom (nextQuote (some q) c) rest

def braceBalance (line : List Char) : Int := balanceFrom none line

/-- The code of a raw line, trimmed, given whether a block comment is open in front of it; and
whether one is open behind it. -/
def codeOf (inComment : Bool) (raw : List Char) : List Char × Bool :=
  let (code, isOpen) := stripFrom (if inComment then .comment else .code none) (trim raw)
  (trim code, isOpen)

end CodeAtlas.Outline.Braced
