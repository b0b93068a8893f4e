import CodeAtlas.Symbol
import CodeAtlas.Text.Find
import CodeAtlas.Text.Lines
import CodeAtlas.Text.Utf8

/-! # Outline of Python

Blocks are inferred from the width of the leading white space. Functions, classes and constants are
taken at the outermost level, and every function inside of an outermost class is its method.
-/
namespace CodeAtlas.Outline.Indented
open Text

def indent (line : List Char) : Nat := (line.takeWhile isBlank).length

def isSkippable : List Char → Bool
  | [] => true
  | c :: _ => c == '#'

def closesBracket : List Char → Bool
  | [] => false
  | c :: _ => c == ')' || c == ']' || c == '}'

/-- Whether a line ends the block whose header is indented by `base`: it holds code, is indented no
deeper and is not the tail of a bracketed header or literal. -/
def endsBlock (base : Nat) (line : List Char) : Bool :=
  !isSkippable (trim line) && indent line ≤ base && !closesBracket (trim line)

/-- The last line of code before the block ends, where `last` is the last one seen so far and `line`
is the number of the first of the remaining lines. -/
def blockEndFrom (base last : Nat) : (line : Nat) → List (List Char) → Nat
  | _, [] => last
  | line, raw :: rest =>
    if endsBlock base raw then last
    else blockEndFrom base (if isSkippable (trim raw) then last else line) (line + 1) rest

def blockEnd? (lines : List (List Char)) (start : Nat) : Option Nat :=
  match lines.drop start with
  | [] => none
  | header :: rest => some (blockEndFrom (indent header) (start + 1) (start + 2) rest)

def className? (text : List Char) : Option (List Char) := do
  let (name, _) ← word (← blanks (← literal "class" text))
  return name

def functionName? (text : List Char) : Option (List Char) := do
  let (name, rest) ← word (← blanks (← literal "def" (skipWord "async" text)))
  let c ← (trimStart rest).head?
  if c = '(' || c = '[' then some name else none

def isAssigned : List Char → Bool
  | '=' :: '=' :: _ => false
  | '=' :: _ => true
  | _ => false

/-- The name of the constant that a line assigns: capitals, digits and low lines, with or without an
annotation behind it. -/
def constantName? (text : List Char) : Option (List Char) :=
  let (low, rest) := text.span (· == '_')
  match rest with
  | [] => none
  | c :: rest =>
    if c.isUpper then
      let (name, rest) := rest.span fun c => c.isUpper || c.isDigit || c == '_'
      let assigned := match trimStart rest with
        | ':' :: rest => rest.head?.any (· != '=') && isAssigned (rest.dropWhile (· != '='))
        | rest => isAssigned rest
      if assigned then some (low ++ c :: name) else none
    else none

def isDecorator : List Char → Bool
  | '@' :: c :: _ => !isBlank c
  | _ => false

structure State where
  /-- The outermost class whose body is open. -/
  openClass : Option String := none
  /-- The decorators directly above, in order. -/
  decorators : List (List Char) := []
  deriving DecidableEq, Repr

/-- The class that is open for a line: one at the outermost level closes it, unless it is the tail
of a bracketed header. -/
def State.classAt (st : State) (indent : Nat) (text : List Char) : Option String :=
  if indent = 0 && !closesBracket text then none else st.openClass

/-- What a line declares, but for its extent, with the class in whose body it stands and the
decorators above it. -/
def declaration? (openClass : Option String) (decorators : List (List Char)) (indent : Nat)
    (text : List Char) (line : Nat) : Option Symbol :=
  let symbol (name : List Char) (kind : SymbolKind) (signature : List Char) (parent : String) :
      Symbol :=
    { name := String.ofList name, kind, line, exported := !startsWith "_" name
      signature := String.ofList signature, parent }
  let decorated := ['\n'].intercalate (decorators ++ [text])
  match if indent = 0 then className? text else none with
  | some name => some (symbol name .classType decorated "")
  | none => match functionName? text with
    | some name =>
      if indent = 0 then some (symbol name .function decorated "")
      else openClass.map (symbol name .method decorated)
    | none =>
      if indent = 0 then (constantName? text).map (symbol · .constant text "") else none

def symbolsFrom : State → (line : Nat) → List (List Char) → List Symbol
  | _, _, [] => []
  | st, line, raw :: rest =>
    let text := trim raw
    if isSkippable text then symbolsFrom { st with decorators := [] } (line + 1) rest
    else
      let openClass := st.classAt (indent raw) text
      if isDecorator text then
        symbolsFrom { openClass, decorators := st.decorators ++ [text] } (line + 1) rest
      else match declaration? openClass st.decorators (indent raw) text line with
        | none => symbolsFrom { openClass } (line + 1) rest
        | some s =>
          let openClass := if s.kind = .classType then some s.name else openClass
          { s with endLine := blockEndFrom (indent raw) line (line + 1) rest } ::
            symbolsFrom { openClass } (line + 1) rest

def symbolsOfLines (lines : List (List Char)) : List Symbol := symbolsFrom {} 1 lines

def symbols (content : List UInt8) : List Symbol :=
  symbolsOfLines (lines (Utf8.decode content))

end CodeAtlas.Outline.Indented
