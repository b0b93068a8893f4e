import CodeAtlas.Text.Find
import CodeAtlas.Value

/-! # TOML scalars

Strings in four spellings, integers in four bases, floats, dates and times. Each reader takes what
it can from the beginning of a text and answers the rest.
-/
namespace CodeAtlas.Toml
open Text

inductive Fault where
  | malformed
  /-- An integer in base ten has more digits than are worked out. -/
  | tooManyDigits
  /-- So many brackets are open that there is no room for a value inside of them. -/
  | tooDeep
  deriving DecidableEq, Repr

/-- A reader of the beginning of a text that is not there if it is not well formed. -/
abbrev Scan (α : Type) := List Char → Option (α × List Char)

/-- A reader of the beginning of a text that tells why it cannot be read. -/
abbrev Reader (α : Type) := List Char → Except Fault (α × List Char)

def orMalformed {α : Type} : Option α → Except Fault α
  | some a => .ok a
  | none => .error .malformed

def isControl (c : Char) : Bool := (c.toNat < 0x20 && c != '\t') || c.toNat = 0x7F

def isSpace (c : Char) : Bool := c == ' ' || c == '\t'

def isBare (c : Char) : Bool := c.isAlphanum || c == '-' || c == '_'

/-! ## Strings -/

def hexDigit? (c : Char) : Option Nat :=
  if c.isDigit then some (c.toNat - '0'.toNat)
  else if 'a' ≤ c ∧ c ≤ 'f' then some (c.toNat - 'a'.toNat + 10)
  else if 'A' ≤ c ∧ c ≤ 'F' then some (c.toNat - 'A'.toNat + 10)
  else none

def scalar? (n : Nat) : Option Char := if n.isValidChar then some (Char.ofNat n) else none

def numbered (length : Nat) : Scan Char := fun text => do
  let digits ← (text.take length).mapM hexDigit?
  if digits.length = length then
    let c ← scalar? (digits.foldl (fun n d => n * 16 + d) 0)
    return (c, text.drop length)
  else none

def escape : Scan Char
  | 'b' :: rest => some ('\x08', rest)
  | 't' :: rest => some ('\t', rest)
  | 'n' :: rest => some ('\n', rest)
  | 'f' :: rest => some ('\x0c', rest)
  | 'r' :: rest => some ('\r', rest)
  | '"' :: rest => some ('"', rest)
  | '\\' :: rest => some ('\\', rest)
  | 'u' :: rest => numbered 4 rest
  | 'U' :: rest => numbered 8 rest
  | _ => none

/-- What follows a backslash at the end of a line: the next text that is not blank. The backslash
may have blanks behind it. -/
def lineContinuation (text : List Char) : Option (List Char) :=
  match text with
  | [] => none
  | c :: rest =>
    if c == '\n' then some (rest.dropWhile fun c => isSpace c || c == '\n')
    else if isSpace c then
      match rest.dropWhile isSpace with
      | [] => some []
      | '\n' :: rest => some (rest.dropWhile fun c => isSpace c || c == '\n')
      | _ => none
    else none

def basicFrom (multiline : Bool) : (bound : Nat) → List Char → Scan (List Char)
  | 0, _, _ => none
  | _, _, [] => none
  | bound + 1, found, c :: rest =>
    if c == '"' then
      if !multiline then some (found.reverse, rest)
      else match rest with
        | '"' :: '"' :: rest => some (found.reverse, rest)
        | _ => basicFrom multiline bound (c :: found) rest
    else if c == '\\' then
      match (if multiline then lineContinuation rest else none) with
      | some rest => basicFrom multiline bound found rest
      | none => match escape rest with
        | some (d, rest) => basicFrom multiline bound (d :: found) rest
        | none => none
    else if isControl c && !(multiline && c == '\n') then none
    else basicFrom multiline bound (c :: found) rest

def literalFrom (multiline : Bool) (found : List Char) : Scan (List Char)
  | [] => none
  | c :: rest =>
    if c == '\'' then
      if !multiline then some (found.reverse, rest)
      else match rest with
        | '\'' :: '\'' :: rest => some (found.reverse, rest)
        | _ => literalFrom multiline (c :: found) rest
    else if isControl c && !(multiline && c == '\n') then none
    else literalFrom multiline (c :: found) rest

/-- Up to two more quotes directly behind the closing ones belong to the string. -/
def extraQuotes (quote : Char) (text : List Char) : List Char → List Char × List Char
  | c :: d :: rest =>
    if c == quote then
      if d == quote then (text ++ [quote, quote], rest) else (text ++ [quote], d :: rest)
    else (text, c :: d :: rest)
  | [c] => if c == quote then (text ++ [quote], []) else (text, [c])
  | [] => (text, [])

def skipLineFeed : List Char → List Char
  | '\n' :: rest => rest
  | text => text

def lineString : Scan String
  | '"' :: rest => do
    let (text, rest) ← basicFrom false (rest.length + 1) [] rest
    return (String.ofList text, rest)
  | '\'' :: rest => do
    let (text, rest) ← literalFrom false [] rest
    return (String.ofList text, rest)
  | _ => none

def string : Scan String
  | '"' :: '"' :: '"' :: rest => do
    let (text, rest) ← basicFrom true (rest.length + 1) [] (skipLineFeed rest)
    let (text, rest) := extraQuotes '"' text rest
    return (String.ofList text, rest)
  | '\'' :: '\'' :: '\'' :: rest => do
    let (text, rest) ← literalFrom true [] (skipLineFeed rest)
    let (text, rest) := extraQuotes '\'' text rest
    return (String.ofList text, rest)
  | text => lineString text

/-! ## Numbers -/

def digit? (base : Nat) (c : Char) : Option Nat := (hexDigit? c).filter (· < base)

/-- The digits behind the first one, with single low lines between them. -/
def digitsFrom (base : Nat) (found : List Nat) : List Char → List Nat × List Char
  | [] => (found.reverse, [])
  | '_' :: c :: rest => match digit? base c with
    | some d => digitsFrom base (d :: found) rest
    | none => (found.reverse, '_' :: c :: rest)
  | c :: rest => match digit? base c with
    | some d => digitsFrom base (d :: found) rest
    | none => (found.reverse, c :: rest)

def digits (base : Nat) : Scan (List Nat)
  | [] => none
  | c :: rest => do
    let d ← digit? base c
    return digitsFrom base [d] rest

def number (base : Nat) (ds : List Nat) : Nat := ds.foldl (fun n d => n * base + d) 0

def based : Scan Value
  | '0' :: 'x' :: rest => (digits 16 rest).map fun (ds, rest) => (.int (number 16 ds), rest)
  | '0' :: 'o' :: rest => (digits 8 rest).map fun (ds, rest) => (.int (number 8 ds), rest)
  | '0' :: 'b' :: rest => (digits 2 rest).map fun (ds, rest) => (.int (number 2 ds), rest)
  | _ => none

def signed : List Char → Bool × List Char
  | '-' :: rest => (true, rest)
  | '+' :: rest => (false, rest)
  | text => (false, text)

def fraction (text : List Char) : List Nat × List Char :=
  match text with
  | '.' :: rest => (digits 10 rest).getD ([], text)
  | _ => ([], text)

def exponent (text : List Char) : Option Int × List Char :=
  match text with
  | c :: rest =>
    if c == 'e' || c == 'E' then
      let (negative, rest) := signed rest
      match digits 10 rest with
      | some (ds, rest) =>
        (some (if negative then -(number 10 ds : Int) else number 10 ds), rest)
      | none => (none, text)
    else (none, text)
  | [] => (none, [])

structure Decimal where
  negative : Bool
  whole : List Nat
  part : List Nat
  power : Option Int
  deriving DecidableEq, Repr

def maxDigits : Nat := 4300

def Decimal.value (d : Decimal) : Except Fault Value :=
  if d.part.isEmpty && d.power.isNone then
    if maxDigits < d.whole.length then .error .tooManyDigits
    else
      let n : Int := number 10 d.whole
      .ok (.int (if d.negative then -n else n))
  else
    let x := Value.decimal (number 10 (d.whole ++ d.part)) (d.power.getD 0 - d.part.length)
    .ok (.float (if d.negative then -x else x))

/-- The digits of a number in base ten in front of its fraction; only zero itself begins
with a zero. -/
def wholePart : Scan (List Nat)
  | '0' :: rest => some ([0], rest)
  | text => digits 10 text

def decimal : Scan Decimal := fun text => do
  let (negative, body) := signed text
  let (whole, rest) ← wholePart body
  let (part, rest) := fraction rest
  let (power, rest) := exponent rest
  return (⟨negative, whole, part, power⟩, rest)

def special : Scan Value := fun text =>
  let (negative, body) := signed text
  match body with
  | 'i' :: 'n' :: 'f' :: rest => some (.float (if negative then -1.0 / 0.0 else 1.0 / 0.0), rest)
  | 'n' :: 'a' :: 'n' :: rest => some (.float (0.0 / 0.0), rest)
  | _ => none

/-! ## Dates and times -/

def fixed (length : Nat) : Scan Nat := fun text => do
  let ds ← (text.take length).mapM (digit? 10)
  if ds.length = length then return (number 10 ds, text.drop length) else none

def monthDays (year month : Nat) : Nat :=
  if month = 2 then
    if year % 4 = 0 ∧ (year % 100 ≠ 0 ∨ year % 400 = 0) then 29 else 28
  else if month = 4 ∨ month = 6 ∨ month = 9 ∨ month = 11 then 30
  else 31

/-- A date and whether there is such a day. -/
def date : Scan Bool := fun text => do
  let (year, rest) ← fixed 4 text
  let (month, rest) ← fixed 2 (← literal "-" rest)
  let (day, rest) ← fixed 2 (← literal "-" rest)
  if 1 ≤ month ∧ month ≤ 12 ∧ 1 ≤ day ∧ day ≤ 31 then
    return (1 ≤ year ∧ day ≤ monthDays year month, rest)
  else none

def secondFraction (text : List Char) : List Char :=
  match text with
  | '.' :: c :: rest => if c.isDigit then rest.dropWhile Char.isDigit else text
  | _ => text

def clock (text : List Char) : Option (List Char) := do
  let (hour, rest) ← fixed 2 text
  let (minute, rest) ← fixed 2 (← literal ":" rest)
  if hour < 24 ∧ minute < 60 then return rest else none

def timeOfDay (text : List Char) : Option (List Char) := do
  let (second, rest) ← fixed 2 (← literal ":" (← clock text))
  if second < 60 then return secondFraction rest else none

def timeOffset (text : List Char) : List Char :=
  match text with
  | c :: rest =>
    if c == 'Z' || c == 'z' then rest
    else if c == '+' || c == '-' then (clock rest).getD text
    else text
  | [] => []

def timeAfterDate (text : List Char) : List Char :=
  match text with
  | c :: rest =>
    if c == 'T' || c == 't' || c == ' ' then
      match timeOfDay rest with
      | some rest => timeOffset rest
      | none => text
    else text
  | [] => []

/-- A scalar that is no string. A text with the shape of a date must be one. -/
def plain : Reader Value := fun text =>
  match text with
  | 't' :: 'r' :: 'u' :: 'e' :: rest => .ok (.bool true, rest)
  | 'f' :: 'a' :: 'l' :: 's' :: 'e' :: rest => .ok (.bool false, rest)
  | _ => match date text with
    | some (true, rest) => .ok (.moment, timeAfterDate rest)
    | some (false, _) => .error .malformed
    | none => match timeOfDay text with
      | some rest => .ok (.moment, rest)
      | none => match based text with
        | some found => .ok found
        | none => match decimal text with
          | some (d, rest) => d.value.map (·, rest)
          | none => orMalformed (special text)

end CodeAtlas.Toml
