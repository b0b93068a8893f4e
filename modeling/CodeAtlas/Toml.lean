import CodeAtlas.Toml.Document
import CodeAtlas.Toml.Scalar

/-! # TOML

A text is read statement by statement, one a line, and every statement is added to the document
before the next one is read. So the first fault is told: there is one for all that is not well
formed, one for an integer that is too long to be worked out, and one for brackets that are too many
inside of one another.
-/
namespace CodeAtlas.Toml
open Text

def skipComment (text : List Char) : Option (List Char) :=
  match text with
  | '#' :: rest =>
    match rest.dropWhile (!isControl ·) with
    | [] => some []
    | '\n' :: rest => some ('\n' :: rest)
    | _ => none
  | _ => some text

/-- The text behind blanks, line feeds and comments; `bound` limits the number of comments. -/
def skipLines : (bound : Nat) → List Char → Option (List Char)
  | 0, _ => none
  | bound + 1, text =>
    match text.dropWhile fun c => isSpace c || c == '\n' with
    | '#' :: rest => (skipComment ('#' :: rest)).bind (skipLines bound)
    | rest => some rest

def keyPart : Scan String := fun text =>
  match text.span isBare with
  | ([], _) => lineString text
  | (name, rest) => some (String.ofList name, rest)

/-- The names of a key behind dots, and the text behind the blanks after them. -/
def keyRest : (bound : Nat) → Scan Key
  | 0, _ => none
  | bound + 1, text =>
    match text.dropWhile isSpace with
    | '.' :: rest => do
      let (name, rest) ← keyPart (rest.dropWhile isSpace)
      let (names, rest) ← keyRest bound rest
      return (name :: names, rest)
    | rest => some ([], rest)

def key : Scan Key := fun text => do
  let (name, rest) ← keyPart text
  let (names, rest) ← keyRest (rest.length + 1) rest
  return (name :: names, rest)

def pair (value : Reader Value) : Reader (Key × Value) := fun text => do
  let (key, rest) ← orMalformed (key text)
  let rest ← orMalformed (literal "=" rest)
  let (v, rest) ← value (rest.dropWhile isSpace)
  return ((key, v), rest)

def items (value : Reader Value) : (bound : Nat) → Reader (List Value)
  | 0, _ => .error .malformed
  | bound + 1, text => do
    match ← orMalformed (skipLines (text.length + 1) text) with
    | ']' :: rest => return ([], rest)
    | rest =>
      let (v, rest) ← value rest
      match ← orMalformed (skipLines (rest.length + 1) rest) with
      | ',' :: rest =>
        let (vs, rest) ← items value bound rest
        return (v :: vs, rest)
      | ']' :: rest => return ([v], rest)
      | _ => .error .malformed

def pairs (value : Reader Value) : (bound : Nat) → Document → Reader Document
  | 0, _, _ => .error .malformed
  | bound + 1, d, text => do
    let ((key, v), rest) ← pair value (text.dropWhile isSpace)
    let d ← orMalformed (d.add (.pair key v))
    match rest.dropWhile isSpace with
    | ',' :: rest => pairs value bound d rest
    | '}' :: rest => return (d, rest)
    | _ => .error .malformed

/-- Whether there is room for the value in front of a text, inside of the given brackets, outermost
first. Every bracket that is open takes its part of the stack, and so does what the value is made of
itself. How much there is depends on who asks, so it is left open here. -/
abbrev Room := (around text : List Char) → Bool

/-- A value inside of the given brackets; `bound` limits the number of brackets in it. -/
def value (room : Room) : (bound : Nat) → (around : List Char) → Reader Value
  | 0, _, _ => .error .malformed
  | bound + 1, around, text =>
    if !room around text then .error .tooDeep
    else match text with
    | '[' :: rest => do
      let (vs, rest) ← items (value room bound (around ++ ['['])) (rest.length + 1) rest
      return (.array vs, rest)
    | '{' :: rest => match rest.dropWhile isSpace with
      | '}' :: rest => .ok (.table [], rest)
      | rest => do
        let (d, rest) ← pairs (value room bound (around ++ ['{'])) (rest.length + 1) {} rest
        return (.table (fieldValues d.fields), rest)
    | c :: _ =>
      if c == '"' || c == '\'' then do
        let (s, rest) ← orMalformed (string text)
        return (.string s, rest)
      else plain text
    | [] => .error .malformed

def header (close : String) (table : Key → Statement) : Scan Statement := fun text => do
  let (key, rest) ← key (text.dropWhile isSpace)
  return (table key, ← literal close rest)

def statement (room : Room) : Reader Statement := fun text =>
  match text with
  | '[' :: '[' :: rest => orMalformed (header "]]" .tableOfArray rest)
  | '[' :: rest => orMalformed (header "]" .table rest)
  | _ => do
    let ((key, v), rest) ← pair (value room (text.length + 1) []) text
    return (.pair key v, rest)

def lineEnd (text : List Char) : Option (List Char) := do
  match ← skipComment (text.dropWhile isSpace) with
  | [] => return []
  | '\n' :: rest => return rest
  | _ => none

def documentFrom (room : Room) :
    (bound : Nat) → Document → List Char → Except Fault Document
  | 0, _, _ => .error .malformed
  | bound + 1, d, text =>
    match text.dropWhile isSpace with
    | [] => .ok d
    | c :: rest =>
      if c == '\n' then documentFrom room bound d rest
      else if c == '#' then do documentFrom room bound d (← orMalformed (lineEnd (c :: rest)))
      else do
        let (s, rest) ← statement room (c :: rest)
        let d ← orMalformed (d.add s)
        documentFrom room bound d (← orMalformed (lineEnd rest))

def foldLineEnds : List Char → List Char
  | [] => []
  | '\r' :: '\n' :: rest => '\n' :: foldLineEnds rest
  | c :: rest => c :: foldLineEnds rest

def parse (room : Room) (text : List Char) : Except Fault (List (String × Value)) := do
  let text := foldLineEnds text
  let d ← documentFrom room (text.length + 1) {} text
  return fieldValues d.fields

end CodeAtlas.Toml
