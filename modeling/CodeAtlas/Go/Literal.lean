import CodeAtlas.Go.Cursor

/-! # Literals of Go

Numbers, runes and strings at a place. Each reader answers what follows the longest literal of its
kind.
-/
namespace CodeAtlas.Go.Literal
open Text

/-- A recogniser of text: what follows it. -/
abbrev Recogniser := List Char → Option (List Char)

def isDigitOf (base : Nat) (c : Char) : Bool :=
  if base = 16 then c.isDigit || ('a' ≤ c && c ≤ 'f') || ('A' ≤ c && c ≤ 'F')
  else c.isDigit && c.toNat - '0'.toNat < base

/-- More digits, each with at most one low line in front of it. -/
def moreDigits (base : Nat) : List Char → List Char
  | '_' :: c :: rest => if isDigitOf base c then moreDigits base rest else '_' :: c :: rest
  | c :: rest => if isDigitOf base c then moreDigits base rest else c :: rest
  | [] => []

def digits (base : Nat) : Recogniser
  | [] => none
  | c :: rest => if isDigitOf base c then some (moreDigits base rest) else none

def oneOf (chars : List Char) : Recogniser
  | [] => none
  | c :: rest => if chars.contains c then some rest else none

/-- What follows an optional part. -/
def orSame (r : Recogniser) (text : List Char) : List Char := (r text).getD text

def exponent (letters : List Char) : Recogniser := fun text => do
  digits 10 (orSame (oneOf ['+', '-']) (← oneOf letters text))

def marked (letters : List Char) (base : Nat) : Recogniser := fun text => do
  digits base (orSame (oneOf ['_']) (← oneOf letters (← literal "0" text)))

/-- All the ways in which an integer literal can end. -/
def integers (text : List Char) : List (List Char) :=
  let decimal := match text with
    | '0' :: rest => some rest
    | c :: rest => if c.isDigit then some (moreDigits 10 rest) else none
    | [] => none
  let octal := (literal "0" text).bind fun rest =>
    digits 8 (orSame (oneOf ['_']) (orSame (oneOf ['o', 'O']) rest))
  [decimal, octal, marked ['b', 'B'] 2 text, marked ['x', 'X'] 16 text].filterMap id

def floats (text : List Char) : List (List Char) :=
  let decimalExponent := exponent ['e', 'E']
  let pointed := do
    let rest ← literal "." (← digits 10 text)
    some (orSame decimalExponent (orSame (digits 10) rest))
  let plain := (digits 10 text).bind decimalExponent
  let leading := do
    let rest ← digits 10 (← literal "." text)
    some (orSame decimalExponent rest)
  let hexadecimal := do
    let rest ← oneOf ['x', 'X'] (← literal "0" text)
    let mantissa := match digits 16 (orSame (oneOf ['_']) rest) with
      | some rest => some (match literal "." rest with
        | some behind => orSame (digits 16) behind
        | none => rest)
      | none => (literal "." rest).bind (digits 16)
    exponent ['p', 'P'] (← mantissa)
  [pointed, plain, leading, hexadecimal].filterMap id

/-- The shortest of the given rests, which follows the longest literal. -/
def longest : List (List Char) → Option (List Char)
  | [] => none
  | rest :: others => match longest others with
    | none => some rest
    | some other => some (if other.length < rest.length then other else rest)

def number : Recogniser := fun text =>
  let plain := integers text ++ floats text ++ (digits 10 text).toList
  longest (integers text ++ floats text ++ plain.filterMap (literal "i"))

def exactly (base : Nat) : (count : Nat) → Recogniser
  | 0, text => some text
  | _ + 1, [] => none
  | count + 1, c :: rest => if isDigitOf base c then exactly base count rest else none

def runeEscape : Recogniser
  | 'x' :: rest => exactly 16 2 rest
  | 'u' :: rest => exactly 16 4 rest
  | 'U' :: rest => exactly 16 8 rest
  | text => (oneOf ['a', 'b', 'f', 'n', 'r', 't', 'v', '\\', '\'', '"'] text).or (exactly 8 3 text)

def rune : Recogniser
  | '\'' :: '\\' :: rest => (runeEscape rest).bind (literal "'")
  | '\'' :: c :: rest => if c = '\'' then none else literal "'" rest
  | _ => none

def rawTail : Recogniser
  | [] => none
  | c :: rest => if c = '\x60' then some rest else rawTail rest

/-- What is left to be read of an escape sequence in a string. -/
inductive Escape where
  | none
  | start
  | hex (count : Nat)
  deriving DecidableEq, Repr

/-- The rest of an interpreted string literal. Any character may follow a backslash, but the letters
of numeric escapes need their digits. -/
def stringTail : Escape → Recogniser
  | _, [] => none
  | .none, c :: rest =>
    if c = '"' then some rest
    else if c = '\n' then none
    else stringTail (if c = '\\' then .start else .none) rest
  | .start, c :: rest =>
    stringTail (if c = 'x' then .hex 2 else if c = 'u' then .hex 4 else if c = 'U' then .hex 8
      else .none) rest
  | .hex count, c :: rest =>
    if isDigitOf 16 c then stringTail (if count ≤ 1 then .none else .hex (count - 1)) rest else none

def string : Recogniser
  | [] => none
  | c :: rest =>
    if c = '"' then stringTail .none rest else if c = '\x60' then rawTail rest else none

end CodeAtlas.Go.Literal

namespace CodeAtlas.Go.Cursor

def literal? (c : Cursor) (r : Literal.Recogniser) : Option Cursor :=
  (r c.rest).map fun rest => c.advance (c.rest.length - rest.length)

theorem leads_literal? {c d : Cursor} {r : Literal.Recogniser} (h : c.literal? r = some d) :
    c.Leads d := by
  obtain ⟨rest, -, rfl⟩ := Option.map_eq_some_iff.mp h
  exact leads_advance c _

end CodeAtlas.Go.Cursor
