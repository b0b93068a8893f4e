import CodeAtlas.Python.Token
import CodeAtlas.Text.Blank

/-! # String literals of Python

Which escape sequences a literal may hold, and the expressions inside of a formatted one.
-/
namespace CodeAtlas.Python.StringLiteral

def isBytes (s : StringLiteral) : Bool := s.marks.contains 'b'

def isRaw (s : StringLiteral) : Bool := s.marks.contains 'r'

def isFormatted (s : StringLiteral) : Bool := s.marks.contains 'f'

def hexDigit? (c : Char) : Option Nat :=
  if c.isDigit then some (c.toNat - '0'.toNat)
  else if 'a' ≤ c && c ≤ 'f' then some (c.toNat - 'a'.toNat + 10)
  else if 'A' ≤ c && c ≤ 'F' then some (c.toNat - 'A'.toNat + 10)
  else none

/-- What is left to be read of an escape sequence. -/
inductive Escape where
  | none
  | start
  /-- So many digits of a code point whose earlier digits give `value`. -/
  | digits (count value : Nat)
  | name
  /-- A character name with so many characters so far. -/
  | inName (length : Nat)
  deriving DecidableEq, Repr

def Escape.ofLetter (bytes : Bool) (c : Char) : Escape :=
  if c = 'x' then .digits 2 0
  else if bytes then .none
  else if c = 'u' then .digits 4 0
  else if c = 'U' then .digits 8 0
  else if c = 'N' then .name
  else .none

/-- Whether all escape sequences are complete, from a place inside of the body on. -/
def escapesOk (bytes : Bool) : Escape → List Char → Bool
  | .none, [] => true
  | .start, [] => true
  | _, [] => false
  | .none, c :: rest => escapesOk bytes (if c = '\\' then .start else .none) rest
  | .start, c :: rest => escapesOk bytes (Escape.ofLetter bytes c) rest
  | .digits count value, c :: rest => match hexDigit? c with
    | some d =>
      let value := value * 16 + d
      if 1 < count then escapesOk bytes (.digits (count - 1) value) rest
      else value ≤ 0x10FFFF && escapesOk bytes .none rest
    | none => false
  | .name, c :: rest => c == '{' && escapesOk bytes (.inName 0) rest
  | .inName length, c :: rest =>
    if c = '}' then 0 < length && escapesOk bytes .none rest
    else escapesOk bytes (.inName (length + 1)) rest

def bodyOk (s : StringLiteral) : Bool :=
  s.body.all (· != '\x00') && (!s.isBytes || s.body.all (·.toNat < 0x80)) &&
    (s.isRaw || escapesOk s.isBytes .none s.body)

/-- What a place inside of an embedded expression belongs to: nothing in particular, or a string
with the given quotation mark, single or triple. -/
inductive Within where
  | code
  | short (quote : Char)
  | long (quote : Char)
  deriving DecidableEq, Repr

def maxBrackets : Nat := 200

def opening (c : Char) : Char := if c = ')' then '(' else if c = ']' then '[' else '{'

structure Scan where
  within : Within := .code
  brackets : List Char := []
  /-- The number of characters that belong to what has been decided already. -/
  decided : Nat := 0
  deriving DecidableEq, Repr

def twice (q : Char) : List Char → Bool
  | a :: b :: _ => a == q && b == q
  | _ => false

/-- What becomes of the scan at a character of code, if the expression goes on; `none` where the
character cannot stand. -/
def Scan.code (scan : Scan) (c : Char) (rest : List Char) : Option Scan :=
  if c = '\'' || c = '"' then
    some (if twice c rest then { scan with within := .long c, decided := 2 }
      else { scan with within := .short c })
  else if c = '#' then none
  else if c = '(' || c = '[' || c = '{' then
    if maxBrackets ≤ scan.brackets.length then none
    else some { scan with brackets := c :: scan.brackets }
  else if c = ')' || c = ']' || c = '}' then
    match scan.brackets with
    | [] => none
    | o :: outer => if o = opening c then some { scan with brackets := outer } else none
  else some scan

def beginsComparison (c : Char) (rest : List Char) : Bool :=
  (c == '!' || c == '=' || c == '<' || c == '>') && rest.head? == some '='

/-- An embedded expression up to the sign that ends it, which is the first of what follows. -/
def expressionEnd (scan : Scan) (text : List Char) : List Char → Option (List Char × List Char)
  | [] => none
  | c :: rest =>
    if 0 < scan.decided then
      expressionEnd { scan with decided := scan.decided - 1 } (c :: text) rest
    else if c = '\\' then none
    else match scan.within with
      | .short q =>
        expressionEnd { scan with within := if c = q then .code else .short q } (c :: text) rest
      | .long q =>
        if c = q && twice q rest then
          expressionEnd { scan with within := .code, decided := 2 } (c :: text) rest
        else expressionEnd scan (c :: text) rest
      | .code =>
        if scan.brackets.isEmpty && beginsComparison c rest then
          expressionEnd { scan with decided := 1 } (c :: text) rest
        else if scan.brackets.isEmpty && (c = '!' || c = ':' || c = '}' || c = '=') then
          some (text.reverse, c :: rest)
        else match scan.code c rest with
          | some scan => expressionEnd scan (c :: text) rest
          | none => none

/-- The literal text of a formatted string up to a brace that opens an expression or, inside of a
format, closes it. Doubled braces are text outside of formats, and so is the name of a character. -/
def literalEnd (raw nested : Bool) : (skipped : Nat) → (inName : Bool) → List Char →
    Option (List Char)
  | _, _, [] => some []
  | skipped + 1, inName, _ :: rest => literalEnd raw nested skipped inName rest
  | 0, true, c :: rest => literalEnd raw nested 0 (c != '}') rest
  | 0, false, c :: rest =>
    if c = '\\' && !raw then
      match rest with
      | 'N' :: '{' :: _ => literalEnd raw nested 2 true rest
      | d :: _ =>
        if d = '{' || d = '}' then literalEnd raw nested 0 false rest
        else literalEnd raw nested 1 false rest
      | [] => some []
    else if c = '{' || c = '}' then
      if !nested && rest.head? = some c then literalEnd raw nested 1 false rest
      else if !nested && c = '}' then none
      else some (c :: rest)
    else literalEnd raw nested 0 false rest

def isSpace (c : Char) : Bool := c == ' ' || ('\t' ≤ c && c ≤ '\r')

/-- The expressions of a formatted string, from a place in its text on, and what is left: nothing,
or the brace that closes a format. Formats may hold expressions, but only one level of them. -/
def expressions (raw : Bool) : (bound level : Nat) → List Char →
    Option (List (List Char) × List Char)
  | 0, _, _ => none
  | bound + 1, level, text => do
    match ← literalEnd raw (0 < level) 0 false text with
    | [] => some ([], [])
    | '}' :: rest => some ([], '}' :: rest)
    | _ :: rest =>
      if 2 ≤ level then none
      else
        let (expression, rest) ← expressionEnd {} [] rest
        if expression.all isSpace then none
        else
          let rest := match rest with
            | '=' :: rest => rest.dropWhile isSpace
            | _ => rest
          let rest ← match rest with
            | '!' :: c :: rest => if c = 's' || c = 'r' || c = 'a' then some rest else none
            | _ => some rest
          let (inner, rest) ← match rest with
            | ':' :: rest => expressions raw bound (level + 1) rest
            | _ => some ([], rest)
          match rest with
          | '}' :: rest =>
            let (others, rest) ← expressions raw bound level rest
            some (expression :: (inner ++ others), rest)
          | _ => none

def expressions? (s : StringLiteral) : Option (List (List Char)) :=
  if s.isFormatted then
    match expressions s.isRaw (s.body.length + 1) 0 s.body with
    | some (found, []) => some found
    | _ => none
  else some []

end CodeAtlas.Python.StringLiteral
