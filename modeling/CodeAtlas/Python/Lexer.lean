import CodeAtlas.Python.Number
import CodeAtlas.Python.Token
import CodeAtlas.Text.Identifier
import CodeAtlas.Text.Lines

/-! # From Python text to tokens

Line ends are folded to line feeds beforehand, and a zero character stands for bytes that are no
text. Indentation is measured twice, with tabs to the next multiple of eight and with tabs of one
column; both measures have to agree on what is deeper. Inside of brackets lines do not matter.
-/
namespace CodeAtlas.Python.Lexer
open Text

structure State where
  rest : List Char
  line : Nat := 1
  /-- The brackets that are open, innermost first. -/
  brackets : List Char := []
  /-- The two measures of the open blocks, innermost first. -/
  indents : List (Nat × Nat) := [(0, 0)]
  atLineStart : Bool := true
  /-- The tokens so far, the last one first. -/
  tokens : List Token := []
  deriving Repr

def maxIndents : Nat := 100

def maxBrackets : Nat := 200

def State.push (st : State) (kind : TokenKind) : State :=
  { st with tokens := ⟨kind, st.line⟩ :: st.tokens }

/-- The indentation of a line in both measures, its first text and the number of that line. A
backslash goes on with the next line, but the first one fixes the measures. -/
def measure (column tabColumn : Nat) (fixed : Option (Nat × Nat)) (line : Nat) :
    List Char → Option ((Nat × Nat) × List Char × Nat)
  | ' ' :: rest => measure (column + 1) (tabColumn + 1) fixed line rest
  | '\t' :: rest => measure ((column / 8 + 1) * 8) (tabColumn + 1) fixed line rest
  | '\x0c' :: rest => measure 0 0 fixed line rest
  | ['\\', '\n'] => none
  | '\\' :: '\n' :: rest =>
    let fixed := fixed.or (if column = 0 then none else some (column, column))
    measure column tabColumn fixed (line + 1) rest
  | '\\' :: _ => none
  | rest => some (match fixed with
    | some m => m
    | none => (column, tabColumn), rest, line)

/-- Closes blocks until one of the given measures is found. -/
def closeBlocks (column tabColumn line : Nat) :
    List (Nat × Nat) → List Token → Option (List (Nat × Nat) × List Token)
  | [], _ => none
  | (c, t) :: outer, tokens =>
    if column = c then if tabColumn = t then some ((c, t) :: outer, tokens) else none
    else if column < c then closeBlocks column tabColumn line outer (⟨.dedent, line⟩ :: tokens)
    else none

def State.indentTo (st : State) (column tabColumn : Nat) : Option State :=
  match st.indents with
  | [] => none
  | (c, t) :: _ =>
    if column = c then if tabColumn = t then some st else none
    else if c < column then
      if maxIndents ≤ st.indents.length then none
      else if tabColumn ≤ t then none
      else some { st.push .indent with indents := (column, tabColumn) :: st.indents }
    else do
      let (indents, tokens) ← closeBlocks column tabColumn st.line st.indents st.tokens
      some { st with indents, tokens }

def skipComment (text : List Char) : List Char := text.dropWhile (· != '\n')

def signs : List String :=
  ["**=", "//=", ">>=", "<<=", "...", "!=", "->", ":=", "+=", "-=", "*=", "/=", "%=", "&=", "|=",
   "^=", "@=", "==", "<=", ">=", "<<", ">>", "**", "//", "+", "-", "*", "/", "%", "&", "|", "^",
   "~", "<", ">", "(", ")", "[", "]", "\x7b", "\x7d", ",", ":", ".", ";", "@", "="]

def sign? (text : List Char) : Option (String × List Char) :=
  signs.findSome? fun s => (startsWithRest s.toList text).map (s, ·)
where
  startsWithRest : List Char → List Char → Option (List Char)
    | [], text => some text
    | _ :: _, [] => none
    | a :: s, c :: text => if a = c then startsWithRest s text else none

def shortBody (quote : Char) (body : List Char) : List Char → Option (List Char × List Char)
  | [] => none
  | '\\' :: c :: rest => shortBody quote (c :: '\\' :: body) rest
  | c :: rest =>
    if c = quote then some (body.reverse, rest)
    else if c = '\n' then none
    else shortBody quote (c :: body) rest

def longBody (quote : Char) (body : List Char) : List Char → Option (List Char × List Char)
  | [] => none
  | '\\' :: c :: rest => longBody quote (c :: '\\' :: body) rest
  | a :: b :: c :: rest =>
    if a = quote && b = quote && c = quote then some (body.reverse, rest)
    else longBody quote (a :: body) (b :: c :: rest)
  | c :: rest => longBody quote (c :: body) rest

def stringBody : List Char → Option (List Char × List Char)
  | a :: b :: c :: rest =>
    if a = b && b = c then longBody a [] rest else shortBody a [] (b :: c :: rest)
  | a :: rest => shortBody a [] rest
  | [] => none

def stringMarks : List String := ["", "b", "u", "r", "f", "br", "rb", "fr", "rf"]

def isQuote (c : Char) : Bool := c == '\'' || c == '"'

def lineFeeds (text : List Char) : Nat := text.count '\n'

def State.string (st : State) (marks : List Char) (text : List Char) : Option State := do
  let (body, rest) ← stringBody text
  let st := st.push (.string ⟨marks.map Char.toLower, body⟩)
  some { st with rest, line := st.line + lineFeeds body }

/-- A character that may open an identifier, as far as reading goes; outside of ASCII the whole
word is judged afterwards. -/
def opensWord (c : Char) : Bool := c.isAlpha || c == '_' || 0x80 ≤ c.toNat

def State.word (st : State) : Option State :=
  let (word, rest) := st.rest.span Number.couldContinue
  if rest.head?.any isQuote && stringMarks.contains (String.ofList (word.map Char.toLower)) then
    st.string word rest
  else if isIdentifier word then some { st.push (.word (String.ofList word)) with rest }
  else none

def closing (c : Char) : Char := if c = '(' then ')' else if c = '[' then ']' else '}'

def State.sign (st : State) : Option State := do
  let (s, rest) ← sign? st.rest
  let st := { st.push (.sign s) with rest }
  match s with
  | "(" | "[" | "\x7b" =>
    if maxBrackets ≤ st.brackets.length then none
    else some { st with brackets := s.toList ++ st.brackets }
  | ")" | "]" | "\x7d" => match st.brackets with
    | [] => none
    | c :: outer =>
      if s == String.singleton (closing c) then some { st with brackets := outer } else none
  | _ => some st

def State.nextLine (st : State) (rest : List Char) : State :=
  { st with rest, line := st.line + 1, atLineStart := true }

/-- Reads the beginning of a line. Lines without code change nothing. -/
def State.lineStart (st : State) : Option State := do
  let ((column, tabColumn), rest, line) ← measure 0 0 none st.line st.rest
  let st := { st with rest, line, atLineStart := false }
  match rest with
  | [] => some st
  | '\n' :: rest => some (st.nextLine rest)
  | '#' :: rest => match skipComment rest with
    | [] => some { st with rest := [] }
    | _ :: rest => some (st.nextLine rest)
  | _ => if st.brackets.isEmpty then st.indentTo column tabColumn else some st

def State.step (st : State) : Option State :=
  if st.atLineStart then st.lineStart
  else match st.rest with
    | [] => some st
    | '\n' :: rest =>
      some ((if st.brackets.isEmpty then st.push .newline else st).nextLine rest)
    | '\\' :: '\n' :: c :: rest => some { st with rest := c :: rest, line := st.line + 1 }
    | '\\' :: _ => none
    | '#' :: rest => some { st with rest := skipComment rest }
    | c :: rest =>
      if c = ' ' || c = '\t' || c = '\x0c' then some { st with rest }
      else if isQuote c then st.string [] st.rest
      else if opensWord c then st.word
      else if c.isDigit || (c = '.' && rest.head?.any Char.isDigit) then do
        let (imaginary, rest) ← Number.read st.rest
        some { st.push (.number imaginary) with rest }
      else st.sign

def run : (bound : Nat) → State → Option State
  | 0, st => if st.rest.isEmpty then some st else none
  | bound + 1, st => if st.rest.isEmpty then some st else (st.step).bind (run bound)

/-- The tokens of a text. A missing line feed at the end is added. -/
def tokens? (text : List Char) : Option (List Token) := do
  let text := if text.getLast?.any (· != '\n') then text ++ ['\n'] else text
  let st ← run (2 * text.length + 2) { rest := text }
  if !st.brackets.isEmpty then none
  else
    let dedents := List.replicate (st.indents.length - 1) (Token.mk .dedent st.line)
    some ((Token.mk .endOfFile st.line :: dedents ++ st.tokens).reverse)

end CodeAtlas.Python.Lexer
