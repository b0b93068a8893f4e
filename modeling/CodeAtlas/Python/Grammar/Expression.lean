import CodeAtlas.Python.Grammar.Basic
import CodeAtlas.Python.Lexer
import CodeAtlas.Python.StringLiteral

/-! # The grammar of Python: expressions -/
namespace CodeAtlas.Python.Grammar
open CodeAtlas.Python.Parser

/-- An expression that may name its value, and whether it does. -/
def namedExpression (g : Grammar) : Parser (Target × Bool) :=
  let named : Parser (Target × Bool) := do
    let _ ← name
    sign ":="
    let _ ← g.expression
    return (.value, true)
  let plain : Parser (Target × Bool) := do
    let t ← g.expression
    check (!(← atSign ":="))
    return (t, false)
  named <|> plain

/-- An expression with or without a star, as in a list of values. -/
def starExpression (g : Grammar) : Parser Target :=
  (sign "*" *> Target.star <$> g.sum) <|> g.expression

/-- An expression with or without a star or a name, as in brackets. -/
def starNamedExpression (g : Grammar) : Parser Target :=
  (sign "*" *> Target.star <$> g.sum) <|> (Prod.fst <$> g.namedExpression)

def starExpressions (g : Grammar) : Parser Target := do
  match ← separatedEnd g.starExpression with
  | ([t], false) => return t
  | (ts, _) => return .sequence ts

def yieldExpression (g : Grammar) : Parser Target := do
  word "yield"
  let delegated : Parser Target := word "from" *> g.expression
  let _ ← delegated <|> g.starExpressions <|> pure .value
  return .value

def yieldOrValues (g : Grammar) : Parser Target := g.yieldExpression <|> g.starExpressions

def starTarget (g : Grammar) : Parser Target := do
  let t ← (sign "*" *> Target.star <$> g.primary) <|> g.primary
  check t.assigned
  return t

def starTargets (g : Grammar) : Parser Unit := (separatedEnd g.starTarget).yielding ()

def comprehension (g : Grammar) : Parser Unit := do
  let clause : Parser Unit := do
    let _ ← perhaps (word "async")
    word "for"
    g.starTargets
    word "in"
    let _ ← g.disjunction
    let _ ← many (word "if" *> g.disjunction)
  clause
  let _ ← many clause

def atComprehension : Parser Bool := do return (← atWord "for") || (← atWord "async")

/-! ## Parameters -/

structure ParameterState where
  /-- A parameter with a default has been read, so that others need one. -/
  defaulted : Bool := false
  slashed : Bool := false
  starred : Bool := false
  /-- The star stands alone, so that a name has to follow. -/
  nameNeeded : Bool := false
  count : Nat := 0
  deriving DecidableEq, Repr

def annotation (annotated : Bool) (type : Parser Target) : Parser Unit :=
  if annotated then (perhaps (sign ":" *> type)).yielding () else pure ()

def parameter (g : Grammar) (annotated : Bool) (st : ParameterState) : Parser ParameterState := do
  match ← peek with
  | .sign "/" =>
    sign "/"
    check (!st.slashed && !st.starred && 0 < st.count)
    return { st with slashed := true }
  | .sign "*" =>
    sign "*"
    check (!st.starred)
    if ← atSign "," then return { st with starred := true, nameNeeded := true }
    let _ ← name
    annotation annotated g.starExpression
    return { st with starred := true }
  | _ =>
    let _ ← name
    annotation annotated g.expression
    let given ← perhaps (sign "=" *> g.expression)
    check (given.isSome || st.starred || !st.defaulted)
    return { st with
      defaulted := st.defaulted || (!st.starred && given.isSome)
      nameNeeded := false
      count := st.count + 1 }

def lastParameter (g : Grammar) (annotated : Bool) : Parser Unit := do
  sign "**"
  let _ ← name
  annotation annotated g.expression
  let _ ← perhaps (sign ",")

def parametersFrom (g : Grammar) (annotated : Bool) :
    (bound : Nat) → ParameterState → Parser Unit
  | 0, _ => fail
  | bound + 1, st => do
    if ← atSign "**" then
      check (!st.nameNeeded)
      g.lastParameter annotated
    else
      let st ← g.parameter annotated st
      let more : Parser Unit := sign "," *> g.parametersFrom annotated bound st
      let done : Parser Unit := do
        let _ ← perhaps (sign ",")
        check (!st.nameNeeded)
      more <|> done

def parameters (g : Grammar) (annotated : Bool) : Parser Unit := fun ts =>
  ((g.parametersFrom annotated ts.length {}) <|> pure ()) ts

def lambda (g : Grammar) : Parser Target := do
  word "lambda"
  g.parameters false
  sign ":"
  let _ ← g.expression
  return .value

/-! ## Operators -/

def expressionRule (g : Grammar) : Parser Target := do
  if ← atWord "lambda" then g.lambda
  else
    let t ← g.disjunction
    let condition : Parser Target := do
      word "if"
      let _ ← g.disjunction
      word "else"
      let _ ← g.expression
      return .value
    condition <|> pure t

/-- Operands with operators between them: a target only if there is no operator. -/
def chain (operand : Parser Target) (operator : Parser Unit) : Parser Target := do
  let first ← operand
  let rest ← many (operator *> operand)
  return if rest.isEmpty then first else .value

def disjunctionRule (g : Grammar) : Parser Target :=
  chain g.inversion (word "or" <|> word "and")

def comparisonOperator : Parser Unit :=
  oneSign ["==", "!=", "<=", "<", ">=", ">"] <|> word "in" <|> (word "not" *> word "in") <|>
    (word "is" *> word "not") <|> word "is"

def inversionRule (g : Grammar) : Parser Target := do
  if ← atWord "not" then
    word "not"
    let _ ← g.inversion
    return .value
  else chain g.sum comparisonOperator

def sumRule (g : Grammar) : Parser Target :=
  chain g.factor (oneSign ["+", "-", "*", "/", "//", "%", "@", "<<", ">>", "&", "^", "|"])

def factorRule (g : Grammar) : Parser Target :=
  let signed : Parser Target := do
    oneSign ["+", "-", "~"]
    let _ ← g.factor
    return .value
  let awaited : Parser Target := do
    word "await"
    let _ ← g.primary
    return .value
  let power : Parser Target := do
    let t ← awaited <|> g.primary
    let raised ← perhaps (sign "**" *> g.factor)
    return if raised.isSome then .value else t
  signed <|> power

/-! ## Calls and subscripts -/

/-- What the arguments of a call have come to. -/
inductive ArgumentPhase where
  | positional
  | keyword
  | unpacked
  deriving DecidableEq, Repr

def positionalArgument (g : Grammar) : Parser Unit := do
  let _ ← g.namedExpression
  check (!(← atSign "="))

/-- An argument with a star or a name, and what the arguments have come to behind it. -/
def markedArgument (g : Grammar) (phase : ArgumentPhase) : Parser ArgumentPhase :=
  let starred : Parser ArgumentPhase := do
    sign "*"
    check (phase != .unpacked)
    let _ ← g.expression
    return phase
  let unpacked : Parser ArgumentPhase := do
    sign "**"
    let _ ← g.expression
    return .unpacked
  let keyword : Parser ArgumentPhase := do
    let _ ← name
    sign "="
    let _ ← g.expression
    return if phase == .unpacked then .unpacked else .keyword
  starred <|> unpacked <|> keyword

def argument (g : Grammar) (phase : ArgumentPhase) : Parser ArgumentPhase :=
  g.markedArgument phase <|> (check (phase == .positional) *> g.positionalArgument).yielding phase

def moreArguments (g : Grammar) : (bound : Nat) → ArgumentPhase → Parser Unit
  | 0, _ => fail
  | bound + 1, phase =>
    let more : Parser Unit := do
      sign ","
      let phase ← g.argument phase
      g.moreArguments bound phase
    more <|> (perhaps (sign ",")).yielding ()

def restArguments (g : Grammar) (phase : ArgumentPhase) : Parser Unit := fun ts =>
  g.moreArguments (ts.length + 1) phase ts

/-- The arguments of a call or a class in parentheses. A comprehension may be the only argument of a
call. -/
def arguments (g : Grammar) (comprehended : Bool) : Parser Unit := do
  sign "("
  let marked : Parser Unit := do
    let phase ← g.markedArgument .positional
    g.restArguments phase
  let positional : Parser Unit := do
    g.positionalArgument
    if comprehended && (← atComprehension) then g.comprehension
    else g.restArguments .positional
  marked <|> positional <|> pure ()
  sign ")"

def sliceTail (g : Grammar) : Parser Unit := do
  sign ":"
  let _ ← perhaps g.expression
  let _ ← perhaps (sign ":" *> perhaps g.expression)

def slice (g : Grammar) : Parser Unit := do
  if ← atSign "*" then sign "*" *> g.expression.yielding ()
  else if ← atSign ":" then g.sliceTail
  else
    let (_, named) ← g.namedExpression
    if !named && (← atSign ":") then g.sliceTail

def suffixesRule (g : Grammar) (t : Target) : Parser Target := do
  match ← peek with
  | .sign "." =>
    sign "."
    let _ ← name
    g.suffixes .simple
  | .sign "(" =>
    g.arguments true
    g.suffixes .value
  | .sign "[" =>
    sign "["
    let _ ← separatedEnd g.slice
    sign "]"
    g.suffixes .simple
  | _ => return t

/-! ## Operands -/

def parenthesized (g : Grammar) : Parser Target := do
  sign "("
  if ← atSign ")" then return (← (sign ")").yielding (.sequence []))
  if ← atWord "yield" then return (← g.yieldExpression <* sign ")")
  let first ← g.starNamedExpression
  if ← atComprehension then
    check (!first.starred)
    g.comprehension
    sign ")"
    return .value
  else if ← atSign "," then
    let rest ← many (sign "," *> g.starNamedExpression)
    let _ ← perhaps (sign ",")
    sign ")"
    return .sequence (first :: rest)
  else
    check (!first.starred)
    sign ")"
    return first

def bracketed (g : Grammar) : Parser Target := do
  sign "["
  if ← atSign "]" then return (← (sign "]").yielding (.sequence []))
  let first ← g.starNamedExpression
  if ← atComprehension then
    check (!first.starred)
    g.comprehension
    sign "]"
    return .value
  else
    let rest ← many (sign "," *> g.starNamedExpression)
    let _ ← perhaps (sign ",")
    sign "]"
    return .sequence (first :: rest)

def entry (g : Grammar) : Parser Unit :=
  let pair : Parser Unit := do
    let _ ← g.expression
    sign ":"
    let _ ← g.expression
  (sign "**" *> g.sum.yielding ()) <|> pair

def moreMembers (member : Parser Unit) : Parser Unit := do
  let _ ← many (sign "," *> member)
  let _ ← perhaps (sign ",")

def braced (g : Grammar) : Parser Target := do
  sign "\x7b"
  let member : Parser Unit := g.starNamedExpression.yielding ()
  let entries : Parser Unit := do
    sign "**"
    let _ ← g.sum
    moreMembers g.entry
  let starred : Parser Unit := do
    sign "*"
    let _ ← g.sum
    moreMembers member
  let others : Parser Unit := do
    let (_, named) ← g.namedExpression
    if !named && (← atSign ":") then
      sign ":"
      let _ ← g.expression
      if ← atComprehension then g.comprehension else moreMembers g.entry
    else if ← atComprehension then g.comprehension
    else moreMembers member
  if !(← atSign "\x7d") then entries <|> starred <|> others
  sign "\x7d"
  return .value

def parsesText (p : Parser Unit) (text : List Char) : Bool :=
  match Lexer.tokens? text with
  | some tokens => (p tokens).isSome
  | none => false

/-- String literals side by side: all of text or all of bytes, and every expression inside of them
is one. -/
def strings (g : Grammar) : Parser Target := do
  let literal : Parser StringLiteral := do
    match (← next).kind with
    | .string s => return s
    | _ => fail
  let first ← literal
  let rest ← many literal
  check (rest.all (·.isBytes == first.isBytes))
  check ((first :: rest).all fun s =>
    s.bodyOk && match s.expressions? with
      | some found => found.all fun e =>
        parsesText (g.starExpressions.yielding ()) ('(' :: e ++ [')'])
      | none => false)
  return .value

def atom (g : Grammar) : Parser Target := do
  match ← peek with
  | .word w =>
    if ["True", "False", "None"].contains w then next.yielding .value else name.yielding .simple
  | .number _ => next.yielding .value
  | .string _ => g.strings
  | .sign "..." => next.yielding .value
  | .sign "(" => g.parenthesized
  | .sign "[" => g.bracketed
  | .sign "\x7b" => g.braced
  | _ => fail

def primaryRule (g : Grammar) : Parser Target := do
  let t ← g.atom
  g.suffixes t

end CodeAtlas.Python.Grammar
