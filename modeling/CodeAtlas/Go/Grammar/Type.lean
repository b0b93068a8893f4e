import CodeAtlas.Go.Reader
import CodeAtlas.Go.SourceFile
import CodeAtlas.Text.Blank

/-! # The grammar of Go: types and parameter lists

Rules refer to one another through a record of readers, which is tied together in the module for
statements. A line feed ends a construct only where a terminator may follow it.
-/
namespace CodeAtlas.Go
open Reader

structure Context where
  /-- A terminator may follow, so that a line feed ends it. -/
  endsAtLine : Bool := false
  /-- A block may follow, so that a brace behind a name opens that block. -/
  beforeBlock : Bool := false
  /-- It may open a statement, so that signs of increment, decrement and sending end it. -/
  leading : Bool := false
  deriving DecidableEq, Repr

/-- What an operand of an expression can be continued by. -/
inductive Operand where
  | name
  /-- Two names with a dot between them. -/
  | qualified
  | indexed
  | value
  /-- A value with type arguments, which has to be called. -/
  | instantiated
  /-- An array, slice, map or struct type: a literal or a conversion follows. -/
  | literalType
  /-- An array type whose length is counted: a literal follows. -/
  | countedType
  /-- Any other type that is no name: a conversion follows. -/
  | plainType
  deriving DecidableEq, Repr

namespace Operand

def isComplete : Operand → Bool
  | .name | .qualified | .indexed | .value => true
  | _ => false

def takesLiteral : Operand → Bool
  | .name | .qualified | .indexed | .literalType | .countedType => true
  | _ => false

/-- Whether a conversion follows an operand, rather than a call. -/
def isType : Operand → Bool
  | .literalType | .plainType => true
  | _ => false

end Operand

/-- The readers that refer to one another. -/
structure Grammar where
  type : Context → Reader TypeShape
  expression : Context → Reader Unit
  unary : Context → Reader Unit
  operators : Context → Reader Unit
  suffixes : Operand → Context → Reader Unit
  literalValue : Reader Unit
  statements : Reader Unit
  /-- One statement, and whether it ends in an expression. -/
  statement : Reader Bool

namespace Grammar

def union (g : Grammar) (ctx : Context) : Reader Unit := do
  let _ ← g.type ctx
  let _ ← many (token "|" (!ctx.endsAtLine) *> g.type ctx)

def typeArguments (g : Grammar) (crossing : Bool := true) : Reader Unit := do
  token "[" crossing
  let _ ← commaList (g.union {})
  token "]"

def typeExpr (g : Grammar) (ctx : Context) : Reader TypeExpr := do
  let c ← start
  let shape ← g.type ctx
  let text ← textFrom c
  return ⟨String.ofList text, shape⟩

/-- Names with commas between them, up to one that is followed by something else. -/
def names : Reader (List String) := do
  let first ← identifier
  let rest ← many (token "," *> identifier)
  return first :: rest

def variadicParameter (g : Grammar) : Reader Member := do
  let name ← (some <$> identifier <* token "...") <|> (token "...").yielding none
  let type ← g.typeExpr {}
  return .parameter name.toList true type

def namedParameter (g : Grammar) : Reader Member := do
  let names ← names
  let type ← g.typeExpr {}
  return .parameter names false type

def typeParameterOnly (g : Grammar) : Reader Member := do
  let type ← g.typeExpr {}
  return .parameter [] false type

def commentMembers : Reader (List Member) := do
  let n ← comments
  return List.replicate n .comment

/-- One declaration of a parameter list, with the comments on either side of it. -/
def parameterGroup (g : Grammar) : Reader (List Member) := do
  let before ← commentMembers
  let member ← g.variadicParameter <|> g.namedParameter <|> g.typeParameterOnly
  let behind ← commentMembers
  return before ++ member :: behind

def parameters (g : Grammar) (crossing : Bool := true) : Reader (List Member) := do
  token "(" crossing
  let groups ← (do
    let first ← g.parameterGroup
    let rest ← many (token "," *> g.parameterGroup)
    return first :: rest) <|> pure []
  let before ← commentMembers
  let _ ← perhaps (token ",")
  let behind ← commentMembers
  token ")"
  return groups.flatten ++ before ++ behind

def namedType (g : Grammar) (ctx : Context) : Reader TypeShape := do
  let crossing := !ctx.endsAtLine
  let name ← identifier
  let qualified ← perhaps (token "." crossing *> identifier)
  let base := if qualified.isSome then TypeShape.other else .named name
  (g.typeArguments crossing).yielding (.generic base) <|> pure base

def result (g : Grammar) (ctx : Context) : Reader Result := do
  let crossing := !ctx.endsAtLine
  match ← next? crossing with
  | some '(' => .list <$> g.parameters crossing
  | some '\n' => return .nothing
  | some '{' => return .nothing
  | _ => (.single <$> g.typeExpr ctx) <|> pure .nothing

def signature (g : Grammar) (ctx : Context) : Reader Unit := do
  let _ ← g.parameters
  let _ ← g.result ctx

def stringLiteral (crossing : Bool := true) : Reader Unit := literal Literal.string crossing

def field (g : Grammar) : Reader Unit := do
  let ctx : Context := { endsAtLine := true }
  let named : Reader Unit := do
    let names ← names
    -- A single name is complete in itself, so that a line feed ends it.
    check (1 < names.length || (← next? false) != some '\n')
    let _ ← g.type ctx
  let embedded : Reader Unit := do
    let _ ← perhaps (token "*")
    let _ ← g.namedType ctx
  either named embedded
  let _ ← perhaps (stringLiteral false)

def interfaceElement (g : Grammar) : Reader Unit :=
  let ctx : Context := { endsAtLine := true }
  let method : Reader Unit := do
    let _ ← identifier
    let _ ← g.parameters false
    let _ ← g.result ctx
  method <|> g.union ctx

def braced (item : Reader Unit) : Reader Unit := do
  token "\x7b"
  let _ ← terminated item
  token "\x7d"

def keywordType (g : Grammar) (ctx : Context) : String → Reader TypeShape
  | "map" => do
    keyword "map"
    token "["
    let _ ← g.type {}
    token "]"
    (g.type ctx).yielding .other
  | "chan" => do
    keyword "chan"
    let _ ← perhaps (token "<-")
    (g.type ctx).yielding .other
  | "func" => do
    keyword "func"
    (g.signature ctx).yielding .other
  | "struct" => do
    keyword "struct"
    (braced g.field).yielding .struct
  | "interface" => do
    keyword "interface"
    (braced g.interfaceElement).yielding .interface
  | _ => fail

def wordAhead : Reader String := look fun c =>
  match c.skip.word? with
  | some (w, _) => w
  | none => ""

def typeRule (g : Grammar) (ctx : Context) : Reader TypeShape := do
  match ← next? with
  | some '*' =>
    token "*"
    let n ← comments
    .wrapped (0 < n) <$> g.type ctx
  | some '(' =>
    token "("
    let n ← comments
    .wrapped (0 < n) <$> g.type {} <* token ")"
  | some '[' =>
    token "["
    token "]" <|> (g.expression {} *> token "]")
    (g.type ctx).yielding .other
  | some '~' =>
    token "~"
    (g.type ctx).yielding .other
  | some '<' =>
    token "<-"
    keyword "chan"
    (g.type ctx).yielding .other
  | _ =>
    let word ← wordAhead
    if Cursor.reserved.contains word then g.keywordType ctx word else g.namedType ctx

end Grammar

end CodeAtlas.Go
