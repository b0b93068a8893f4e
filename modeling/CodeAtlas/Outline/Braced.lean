import CodeAtlas.Outline.Braced.Block
import CodeAtlas.Outline.Braced.Declaration
import CodeAtlas.Text.Lines
import CodeAtlas.Text.Utf8

/-! # Outline of JavaScript and TypeScript

Lines are read one at a time while the nesting depth is tracked. Declarations are taken at depth
zero, and members one level inside of a class that was opened there.
-/
namespace CodeAtlas.Outline.Braced
open Text

structure State where
  depth : Int := 0
  inComment : Bool := false
  /-- The class whose body is open. -/
  openClass : Option String := none
  /-- The depth at which that class was declared. -/
  openClassDepth : Int := 0
  deriving DecidableEq, Repr

def declaration? (st : State) (text : List Char) (line : Nat) : Option Symbol :=
  if startsWith "@" text || isImport text then none
  else
    let outermost := if st.depth = 0 then topLevel? text line else none
    let inClass :=
      if st.depth = st.openClassDepth + 1 then st.openClass.bind (member? text line) else none
    outermost.or inClass

def State.opening (st : State) : Option Symbol → State
  | some s =>
    if s.kind = .classType then
      { st with openClass := some s.name, openClassDepth := st.depth }
    else st
  | none => st

/-- The state behind a line of code. A class stays open while the depth is above its own. -/
def State.advance (st : State) (text : List Char) : State :=
  let depth := st.depth + braceBalance text
  { st with depth, openClass := if depth ≤ st.openClassDepth then none else st.openClass }

/-- What a line declares, but for its extent, and the state behind it. -/
def State.read (st : State) (line : Nat) (raw : List Char) : Option Symbol × State :=
  let (text, inComment) := codeOf st.inComment raw
  let st := { st with inComment }
  if text.isEmpty then (none, st)
  else
    let found := declaration? st text line
    (found, (st.opening found).advance text)

/-- A symbol with the number of its last line, where `line` is the number of its own, `remaining`
are the lines from there on and `total` is the number of the last of all. -/
def withEnd (total : Nat) (st : State) (line : Nat) (remaining : List (List Char)) (s : Symbol) :
    Symbol :=
  { s with endLine := (blockEndFrom st.depth { depth := st.depth } line remaining).getD total }

def symbolsFrom (total : Nat) : State → Nat → List (List Char) → List Symbol
  | _, _, [] => []
  | st, line, raw :: rest =>
    let (found, st') := st.read line raw
    let behind := symbolsFrom total st' (line + 1) rest
    match found with
    | none => behind
    | some s => withEnd total st line (raw :: rest) s :: behind

def symbolsOfLines (lines : List (List Char)) : List Symbol :=
  symbolsFrom lines.length {} 1 lines

def symbols (content : List UInt8) : List Symbol :=
  symbolsOfLines (lines (Utf8.decode content))

end CodeAtlas.Outline.Braced
