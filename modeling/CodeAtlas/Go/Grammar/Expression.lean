import CodeAtlas.Go.Grammar.Type

/-! # The grammar of Go: expressions

Precedence does not matter for what is an expression: operands alternate with binary operators. The
delicate part is what may follow an operand, above all a brace.
-/
namespace CodeAtlas.Go.Grammar
open Reader

/-- The binary operators, longer ones first. -/
def binaryOperators : List String :=
  ["&&", "||", "==", "!=", "<=", ">=", "<<", ">>", "&^", "+", "-", "*", "/", "%", "&", "|", "^",
   "<", ">"]

/-- Operators that make an assignment when an equals sign follows. -/
def assignable : List String := ["+", "-", "*", "/", "%", "&", "|", "^", "<<", ">>", "&^"]

/-- The signs that end an expression which may open a statement. -/
def statementSigns : List String := ["++", "--", "<-"]

def binaryOperator? (ctx : Context) (c : Cursor) : Option Cursor :=
  if ctx.leading && statementSigns.any (fun s => (c.sign? s).isSome) then none
  else do
    let op ← binaryOperators.find? fun op => (c.sign? op).isSome
    let behind ← c.sign? op
    if assignable.contains op && behind.peek? = some '=' then none else some behind

theorem leads_binaryOperator? {ctx : Context} {c d : Cursor} (h : binaryOperator? ctx c = some d) :
    c.Leads d := by
  unfold binaryOperator? at h
  split at h
  · cases h
  · obtain ⟨op, -, h⟩ := Option.bind_eq_some_iff.mp h
    obtain ⟨behind, hsign, h⟩ := Option.bind_eq_some_iff.mp h
    split at h
    · cases h
    · exact Option.some.inj h ▸ Cursor.leads_sign? hsign

def binaryOperator (ctx : Context) : Reader Unit :=
  passing (binaryOperator? ctx) (fun _ _ => leads_binaryOperator?) (!ctx.endsAtLine)

def operatorsRule (g : Grammar) (ctx : Context) : Reader Unit := do
  if (← perhaps (binaryOperator ctx)).isSome then
    g.unary ctx
    g.operators ctx

def expressionRule (g : Grammar) (ctx : Context) : Reader Unit := do
  g.unary ctx
  g.operators ctx

def expressions (g : Grammar) (ctx : Context) : Reader Nat := do
  let found ← commaSeparated (g.expression ctx) (!ctx.endsAtLine)
  return found.length

def arguments (g : Grammar) (crossing : Bool) : Reader Unit := do
  token "(" crossing
  let argument : Reader Unit := do
    g.expression {}
    let _ ← perhaps (token "...")
  let _ ← perhaps (commaSeparated argument)
  let _ ← perhaps (token ",")
  token ")"

/-- The arguments of a call that begins with a type. -/
def typedArguments (g : Grammar) (crossing : Bool) : Reader Unit := do
  token "(" crossing
  let list : Reader Unit := do
    let _ ← g.type {}
    let _ ← many (token "," *> g.expression {})
    let _ ← perhaps (token ",")
  let _ ← perhaps list
  token ")"

def conversion (g : Grammar) (crossing : Bool) : Reader Unit := do
  token "(" crossing
  g.expression {}
  let _ ← perhaps (token ",")
  token ")"

def sliceTail (g : Grammar) : Reader Unit := do
  let high ← perhaps (g.expression {})
  if high.isSome then
    let _ ← perhaps (token ":" *> g.expression {})
  token "]"

/-- What stands in brackets behind an operand, and what that makes of it. -/
def brackets (g : Grammar) (o : Operand) (crossing : Bool) : Reader Operand := do
  token "[" crossing
  let isName := o == .name || o == .qualified
  let indexed : Reader Operand := do
    g.expression {}
    (token "]").yielding (if isName then .indexed else .value) <|>
      (token ":" *> g.sliceTail).yielding .value
  let sliced : Reader Operand := (token ":" *> g.sliceTail).yielding .value
  let types : Reader Operand := do
    let _ ← commaList (g.union {})
    (token "]").yielding (if isName then .indexed else .instantiated)
  indexed <|> sliced <|> types

/-- Whether the place is in front of the check of a type switch. -/
def typeGuardAhead : Reader Bool :=
  ahead (token "." *> token "(" *> keyword "type" *> token ")")

def selector (g : Grammar) (o : Operand) (crossing : Bool) : Reader Operand := do
  token "." crossing
  let assertion : Reader Operand := do
    token "("
    let _ ← g.type {}
    (token ")").yielding .value
  let selected : Reader Operand := identifier.yielding (if o == .name then .qualified else .value)
  assertion <|> selected

/-- The selectors, brackets, calls and literals behind an operand. In front of a block, a brace
behind a single name opens the block, and one behind any other name does either. -/
def suffixesRule (g : Grammar) (o : Operand) (ctx : Context) : Reader Unit := do
  let crossing := !(ctx.endsAtLine && o.isComplete)
  let stop : Reader Unit := check o.isComplete
  let literal : Reader Unit := g.literalValue *> g.suffixes .value ctx
  match ← next? crossing with
  | some '.' =>
    check o.isComplete
    if ← typeGuardAhead then stop
    else (do g.suffixes (← g.selector o crossing) ctx) <|> stop
  | some '[' =>
    check o.isComplete
    g.suffixes (← g.brackets o crossing) ctx
  | some '(' =>
    check (o != .countedType)
    if o.isType then g.conversion crossing else g.arguments crossing
    g.suffixes .value ctx
  | some '{' =>
    if !o.takesLiteral then stop
    else if !(ctx.beforeBlock && o.isComplete) then literal
    else if o == .name then stop
    else either stop literal
  | _ => stop

/-- An element of a literal value: an expression or a literal value without its type. -/
def literalElement (g : Grammar) : Reader Unit := do
  if (← next?) == some '{' then g.literalValue else g.expression {}

def literalValueRule (g : Grammar) : Reader Unit := do
  token "\x7b"
  let element : Reader Unit := do
    g.literalElement
    let _ ← perhaps (token ":" *> g.literalElement)
  let _ ← perhaps (commaSeparated element)
  let _ ← perhaps (token ",")
  token "\x7d"

def parenthesized (g : Grammar) (ctx : Context) : Reader Unit :=
  let value : Reader Unit := do
    token "("
    g.expression {}
    token ")"
    g.suffixes .value ctx
  let type : Reader Unit := do
    token "("
    let _ ← g.type {}
    token ")"
    g.suffixes .plainType ctx
  value <|> type

def arrayOperand (g : Grammar) (ctx : Context) : Reader Unit := do
  token "["
  let counted := (token "..." *> token "]").yielding Operand.countedType
  let sized := (token "]" <|> (g.expression {} *> token "]")).yielding Operand.literalType
  let o ← counted <|> sized
  let _ ← g.type {}
  g.suffixes o ctx

def functionOperand (g : Grammar) (ctx : Context) : Reader Unit := do
  keyword "func"
  g.signature {}
  let body : Reader Unit := do
    token "\x7b"
    g.statements
    token "\x7d"
    g.suffixes .value ctx
  body <|> g.suffixes .plainType ctx

/-- Names that stand for a value and for nothing else. -/
def valueNames : List String := ["nil", "true", "false", "iota"]

def typedCalls : List String := ["new", "make"]

def nameOperand (g : Grammar) (ctx : Context) : Reader Unit := do
  let name ← identifier
  let crossing := !ctx.endsAtLine
  if typedCalls.contains name && (← next? crossing) == some '(' then
    g.typedArguments crossing
    g.suffixes .value ctx
  else
    g.suffixes (if valueNames.contains name || typedCalls.contains name then .value else .name) ctx

def keywordOperand (g : Grammar) (ctx : Context) (word : String) : Reader Unit :=
  if word == "func" then g.functionOperand ctx
  else if word == "map" || word == "struct" then g.type {} *> g.suffixes .literalType ctx
  else if word == "chan" || word == "interface" then g.type {} *> g.suffixes .plainType ctx
  else fail

def operand (g : Grammar) (ctx : Context) : Reader Unit := do
  match ← next? with
  | some '(' => g.parenthesized ctx
  | some '[' => g.arrayOperand ctx
  | some '"' | some '\x60' => Grammar.stringLiteral *> g.suffixes .value ctx
  | some '\'' => Reader.literal Literal.rune *> g.suffixes .value ctx
  | _ =>
    let word ← wordAhead
    if word == "" then Reader.literal Literal.number *> g.suffixes .value ctx
    else if Cursor.reserved.contains word then g.keywordOperand ctx word
    else g.nameOperand ctx

def unaryRule (g : Grammar) (ctx : Context) : Reader Unit := do
  match ← next? with
  | some '<' =>
    (token "<-" *> g.unary ctx) <|> (g.type {} *> g.suffixes .plainType ctx)
  | some c =>
    if ['+', '-', '!', '^', '*', '&'].contains c then token (String.singleton c) *> g.unary ctx
    else g.operand ctx
  | none => fail

end CodeAtlas.Go.Grammar
