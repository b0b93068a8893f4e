/-! # Numbers of Python

Readers answer what is left behind a number, or nothing where the digits at hand make no number.
-/
namespace CodeAtlas.Python.Number

def isDigitOf (base : Nat) (c : Char) : Bool :=
  if base = 16 then c.isDigit || ('a' ≤ c && c ≤ 'f') || ('A' ≤ c && c ≤ 'F')
  else c.isDigit && c.toNat - '0'.toNat < base

def digits (base : Nat) : List Char → Option (List Char)
  | '_' :: c :: rest => if isDigitOf base c then digits base rest else none
  | ['_'] => none
  | c :: rest => if isDigitOf base c then digits base rest else some (c :: rest)
  | [] => some []

/-- A character that could go on an identifier. -/
def couldContinue (c : Char) : Bool := c.isAlphanum || c == '_' || 0x80 ≤ c.toNat

def operatorWordAhead : List Char → Bool
  | 'a' :: 'n' :: 'd' :: _ => true
  | 'e' :: 'l' :: 's' :: 'e' :: _ => true
  | 'f' :: 'o' :: 'r' :: _ => true
  | 'i' :: c :: _ => c == 'f' || c == 'n' || c == 's'
  | 'o' :: 'r' :: _ => true
  | 'n' :: 'o' :: 't' :: _ => true
  | _ => false

/-- The end of a number: nothing that could go on it may follow but a word operator. -/
def finish (rest : List Char) : Option (List Char) :=
  if operatorWordAhead rest || !rest.head?.any couldContinue then some rest else none

def suffix (rest : List Char) : Option (Bool × List Char) :=
  match rest with
  | c :: behind => if c = 'j' || c = 'J' then (finish behind).map (true, ·)
    else (finish rest).map (false, ·)
  | [] => some (false, [])

def exponent (rest : List Char) : Option (Bool × List Char) :=
  match rest with
  | c :: behind =>
    if c = 'e' || c = 'E' then
      match behind with
      | d :: more =>
        if d.isDigit then (digits 10 more).bind suffix
        else if d = '+' || d = '-' then
          match more with
          | e :: more => if e.isDigit then (digits 10 more).bind suffix else none
          | [] => none
        else (finish rest).map (false, ·)
      | [] => (finish rest).map (false, ·)
    else suffix rest
  | [] => suffix rest

def fraction (rest : List Char) : Option (Bool × List Char) :=
  match rest with
  | c :: behind => if c.isDigit then (digits 10 behind).bind exponent else exponent rest
  | [] => exponent rest

def afterWhole (rest : List Char) : Option (Bool × List Char) :=
  match rest with
  | '.' :: behind => fraction behind
  | _ => exponent rest

def based (base : Nat) (rest : List Char) : Option (Bool × List Char) :=
  let rest := match rest with
    | '_' :: behind => behind
    | _ => rest
  match rest with
  | c :: behind =>
    if isDigitOf base c then ((digits base behind).bind finish).map (false, ·) else none
  | [] => none

/-- What may follow a zero in front: zeros alone are a number, but no other digits unless it has a
fraction, an exponent or an imaginary unit. -/
def afterZero (rest : List Char) : Option (Bool × List Char) := do
  let behind ← digits 10 rest
  let read := rest.take (rest.length - behind.length)
  let (imaginary, final) ← afterWhole behind
  let isPlain := !imaginary && final.length = behind.length
  if isPlain && read.any fun c => c != '0' && c != '_' then none else some (imaginary, final)

/-- A number at the beginning of the text: whether it is imaginary, and what follows. -/
def read (text : List Char) : Option (Bool × List Char) :=
  match text with
  | '.' :: rest => fraction rest
  | '0' :: c :: rest =>
    if c = 'x' || c = 'X' then based 16 rest
    else if c = 'o' || c = 'O' then based 8 rest
    else if c = 'b' || c = 'B' then based 2 rest
    else afterZero (c :: rest)
  | '0' :: [] => some (false, [])
  | c :: rest => if c.isDigit then (digits 10 rest).bind afterWhole else none
  | [] => none

end CodeAtlas.Python.Number
