import CodeAtlas.Go.Grammar.Statement
import CodeAtlas.Text.Utf8

/-! # Reading a Go source file

A source file is any mix of declarations and statements, each with a terminator behind it. At the
end of the file a package clause, an import, a function, and whatever ends in an expression may go
without. What cannot be read is skipped up to the end of its line and of its brackets.
-/
namespace CodeAtlas.Go
open Reader

namespace Grammar

/-- An outermost item, and whether the file may end right behind it. -/
def item (g : Grammar) : Reader (Item × Bool) := do
  match ← wordAhead with
  | "package" =>
    keyword "package"
    identifier.yielding (.other, true)
  | "import" => return (.imports (← importDeclaration), true)
  | "func" =>
    (do return (.function (← g.functionDeclaration), true)) <|>
      (do return (.other, ← g.statement))
  | "type" => return (.types (← g.typeDeclaration), false)
  | "const" => do
    let (specs, closed) ← valueDeclaration "const" g.constantSpec
    return (.constants specs, closed)
  | "var" => do
    let (specs, closed) ← valueDeclaration "var" g.variableSpec
    return (.variables specs, closed)
  | _ => return (.other, ← g.statement)

/-- Behind an item: a terminator, or the end of the file where it may stand. -/
def itemEnd (mayEnd : Bool) : Reader Unit :=
  terminator <|> (do
    let c ← start false
    check (mayEnd && c.rest.isEmpty))

def wholeItem (g : Grammar) : Reader Item := do
  let (item, mayEnd) ← g.item
  itemEnd mayEnd
  return item

end Grammar

/-- Moves behind the end of the line on which all brackets are closed again. Where reading goes on
in a file that breaks the grammar is laid down nowhere, and this is a guess at it. Only the imports
of such a file depend on it: it has no outline. -/
def skipBroken : (bound depth : Nat) → Cursor → Cursor
  | 0, _, c => c
  | bound + 1, depth, c =>
    let c := c.skip false
    match c.rest with
    | [] => c
    | ch :: _ =>
      let next := c.advance 1
      if ch = '\n' then if depth = 0 then next else skipBroken bound depth next
      else if ch = '(' || ch = '[' || ch = '{' then skipBroken bound (depth + 1) next
      else if ch = ')' || ch = ']' || ch = '}' then skipBroken bound (depth - 1) next
      else skipBroken bound depth ((c.literal? Literal.string).getD next)

def itemsFrom (g : Grammar) : (bound : Nat) → Cursor → SourceFile
  | 0, _ => ⟨[], false⟩
  | bound + 1, c =>
    let c := c.skip
    if c.rest.isEmpty then ⟨[], true⟩
    else match g.wholeItem c with
      | way :: _ =>
        let file := itemsFrom g bound way.behind
        { file with items := way.value :: file.items }
      | [] =>
        let file := itemsFrom g bound (skipBroken c.rest.length 0 c)
        { file with complete := false }

namespace SourceFile

/-- Reads a source text. A byte order mark in front of it is skipped. -/
def ofText (text : List Char) : SourceFile :=
  let text := match text with
    | '\uFEFF' :: rest => rest
    | _ => text
  itemsFrom (Grammar.forLength text.length) (text.length + 1) { rest := text }

def ofBytes (content : List UInt8) : SourceFile := ofText (Text.Utf8.decode content)

end SourceFile

end CodeAtlas.Go
