import CodeAtlas.Go.Grammar.Expression

/-! # The grammar of Go: declarations -/
namespace CodeAtlas.Go.Grammar
open Reader

/-- A type or an expression in front of a place where a statement may end. -/
def ending : Context := { endsAtLine := true }

def equals (crossing : Bool := true) : Reader Unit := token "=" crossing

def boundName : Reader BoundName :=
  behindGap (fun c => c.identifier?.map fun (name, d) => (⟨name, c.line⟩, d)) (fun _ _ _ h => by
    obtain ⟨_, hname, hd⟩ := Option.map_eq_some_iff.mp h
    exact (Prod.mk.inj hd).2 ▸ Cursor.leads_identifier? hname) true

/-- A comma, by its line, and the name behind it. -/
def commaName (crossing : Bool) : Reader (Nat × BoundName) := do
  let c ← start crossing
  token "," crossing
  let name ← boundName
  return (c.line, name)

/-- Names with commas between them. Where line feeds are not crossed, one in front of a comma ends
the list. -/
def nameList (crossing : Bool) : Reader ValueSpec := do
  let first ← boundName
  let others ← many (commaName crossing)
  return ⟨first, others⟩

def constantValue (g : Grammar) : Reader Unit := do
  check ((← next? false) != some '\n')
  equals <|> (g.type {} *> equals)
  let _ ← g.expressions ending

/-- The names of a constant and its value, which may be missing; and whether it is there. -/
def constantSpec (g : Grammar) : Reader (ValueSpec × Bool) := do
  let names ← nameList false
  let given ← perhaps g.constantValue
  return (names, given.isSome)

/-- The type of variables, their value or both; and whether a value is given. -/
def variableValue (g : Grammar) : Reader Bool :=
  let value : Reader Unit := equals *> (g.expressions ending).yielding ()
  let typed : Reader Bool := do
    let _ ← g.type ending
    let value : Reader Unit := equals false *> (g.expressions ending).yielding ()
    return (← perhaps value).isSome
  value.yielding true <|> typed

def variableSpec (g : Grammar) : Reader (ValueSpec × Bool) := do
  let names ← nameList true
  let given ← g.variableValue
  return (names, given)

def valueGroup (spec : Reader (ValueSpec × Bool)) : Reader (List ValueSpec) := do
  token "("
  let specs ← many (spec <* terminator)
  token ")"
  return specs.map Prod.fst

/-- A declaration of constants or variables; and whether it ends in an expression. -/
def valueDeclaration (word : String) (spec : Reader (ValueSpec × Bool)) :
    Reader (Specs ValueSpec × Bool) := do
  keyword word
  if (← next?) == some '(' then return (.group (← valueGroup spec), false)
  else
    let (names, closed) ← spec
    return (.single names, closed)

def typeParameters (g : Grammar) : Reader Unit := do
  token "["
  let declaration : Reader Unit := do
    let _ ← names
    g.union {}
  let _ ← commaList declaration
  token "]"

/-- What a name is declared to be: a type of its own or, behind an equals sign, another name
for a type. -/
def declaredType (g : Grammar) (n : BoundName) : Reader TypeSpec :=
  let ofType (isAlias : Bool) : Reader TypeSpec := do
    let shape ← g.type ending
    let d ← here
    return { name := n.text, isAlias, shape, line := n.line, endLine := d.line }
  (equals *> ofType true) <|> ofType false

def typeSpec (g : Grammar) : Reader TypeSpec := do
  let n ← boundName
  either (g.declaredType n) (g.typeParameters *> g.declaredType n)

def typeDeclaration (g : Grammar) : Reader (Specs TypeSpec) := do
  keyword "type"
  let group : Reader (List TypeSpec) := token "(" *> terminated g.typeSpec <* token ")"
  if (← next?) == some '(' then .group <$> group else .single <$> g.typeSpec

def body (g : Grammar) : Reader Unit := do
  if (← next? false) == some '{' then
    token "\x7b"
    g.statements
    token "\x7d"

def functionTail (g : Grammar) (line : Nat) : Reader Function := do
  let name ← identifier
  if (← next?) == some '[' then g.typeParameters
  let parameters ← g.parameters
  let result ← g.result ending
  g.body
  let d ← here
  return { name, receiver := none, parameters, result, line, endLine := d.line }

def methodTail (g : Grammar) (line : Nat) : Reader Function := do
  let receiver ← g.parameters
  let name ← identifier
  let parameters ← g.parameters
  let result ← g.result ending
  g.body
  let d ← here
  return { name, receiver := some receiver, parameters, result, line, endLine := d.line }

def functionDeclaration (g : Grammar) : Reader Function := do
  let c ← start
  keyword "func"
  if (← next?) == some '(' then g.methodTail c.line else g.functionTail c.line

/-- An imported path, as written, behind an optional name for it. -/
def importSpec : Reader String := do
  let _ ← perhaps (identifier.yielding () <|> token ".")
  let c ← start
  stringLiteral
  let text ← textFrom c
  return String.ofList text

def importDeclaration : Reader (Specs String) := do
  keyword "import"
  let group : Reader (List String) := token "(" *> terminated importSpec <* token ")"
  if (← next?) == some '(' then .group <$> group else .single <$> importSpec

end CodeAtlas.Go.Grammar
