import CodeAtlas.Outline.Braced.Code
import CodeAtlas.Text.Find

/-! # Where a declaration ends

A declaration ends on the line that brings the nesting depth back to where it began. One that opens
no block ends on its own line, or, where that line is visibly continued, on the line that ends in a
semicolon.
-/
namespace CodeAtlas.Outline.Braced
open Text

def continuations : List String :=
  ["(", ",", "=", "=>", "|", "&", "<", ":", "extends", "implements"]

def isContinued (code : List Char) : Bool := continuations.any (endsWith · code)

structure BlockState where
  depth : Int
  inComment : Bool := false
  /-- Whether a line has gone deeper than the declaration began. -/
  opened : Bool := false
  /-- Whether the next line is the declaration's first. -/
  atStart : Bool := true
  deriving DecidableEq, Repr

/-- The number of the line that ends the declaration, where `line` is the number of the first of
the remaining lines and `base` the depth at which the declaration began. -/
def blockEndFrom (base : Int) : BlockState → Nat → List (List Char) → Option Nat
  | _, _, [] => none
  | st, line, raw :: rest =>
    let (code, inComment) := codeOf st.inComment raw
    -- a line without code ends nothing, but it counts as the first one
    if code.isEmpty then
      blockEndFrom base { st with inComment, atStart := false } (line + 1) rest
    else
      let depth := st.depth + braceBalance code
      if base < depth then
        blockEndFrom base { depth, inComment, opened := true, atStart := false } (line + 1) rest
      else if st.opened || endsWith ";" code || (st.atStart && !isContinued code) then
        some line
      else
        blockEndFrom base { st with depth, inComment, atStart := false } (line + 1) rest

/-- The number of the last line of the declaration that begins at index `start` and at nesting
depth `depth`; the last line of all where nothing ends it. -/
def blockEnd (lines : List (List Char)) (start : Nat) (depth : Int) : Nat :=
  (blockEndFrom depth { depth } (start + 1) (lines.drop start)).getD lines.length

end CodeAtlas.Outline.Braced
