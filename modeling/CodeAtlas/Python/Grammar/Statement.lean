import CodeAtlas.Python.Grammar.Pattern

/-! # The grammar of Python: statements

Here the rules are tied together into the grammar, by the number of rules that may be inside of one
another.
-/
namespace CodeAtlas.Python.Grammar
open CodeAtlas.Python.Parser

/-! ## Imports -/

def moduleName : Parser String := do
  let first ← name
  let rest ← many (sign "." *> name)
  return ".".intercalate (first :: rest)

def asName : Parser Unit := (perhaps (word "as" *> name)).yielding ()

def importModules : Parser (List Import) := do
  let t ← next
  check (t.kind == .word "import")
  let modules ← separated (moduleName <* asName)
  return modules.map fun module => { line := t.line, module }

def dots : Parser Nat := do
  let one : Parser Nat := (sign "...").yielding 3 <|> (sign ".").yielding 1
  return (← many one).foldl (· + ·) 0

/-- The names that are imported from a module; a star stands for none in particular. -/
def importedNames : Parser (List String) := do
  let names := name <* asName
  let parenthesized : Parser (List String) := do
    sign "("
    let (found, _) ← separatedEnd names
    sign ")"
    return found
  let plain : Parser (List String) := do
    let found ← separated names
    check (!(← atSign ","))
    return found
  (sign "*").yielding [] <|> parenthesized <|> plain

def importFrom : Parser (List Import) := do
  let t ← next
  check (t.kind == .word "from")
  let level ← dots
  let module ← perhaps moduleName
  check (0 < level || module.isSome)
  word "import"
  let names ← importedNames
  return [{ line := t.line, module := module.getD "", names, level }]

/-! ## Simple statements -/

def augmentedSigns : List String :=
  ["+=", "-=", "*=", "@=", "/=", "%=", "&=", "|=", "^=", "<<=", ">>=", "**=", "//="]

/-- What follows the sign of an assignment: values, or a target and another assignment. -/
def assignedFrom (g : Grammar) : (bound : Nat) → Parser Unit
  | 0 => fail
  | bound + 1 => do
    sign "="
    if ← atWord "yield" then g.yieldExpression.yielding ()
    else
      let t ← g.starExpressions
      if ← atSign "=" then
        check t.assigned
        g.assignedFrom bound

def assigned (g : Grammar) : Parser Unit := fun ts => g.assignedFrom ts.length ts

def expressionStatement (g : Grammar) : Parser Unit := do
  let t ← g.starExpressions
  match ← peek with
  | .sign ":" =>
    check t.single
    sign ":"
    let _ ← g.expression
    let _ ← perhaps (sign "=" *> g.yieldOrValues)
  | .sign "=" =>
    check t.assigned
    g.assigned
  | .sign s =>
    if augmentedSigns.contains s then
      check t.single
      sign s
      let _ ← g.yieldOrValues
  | _ => return ()

def deletion (g : Grammar) : Parser Unit := do
  word "del"
  let target : Parser Unit := do
    let t ← g.primary
    check t.deleted
  let _ ← separatedEnd target

def raised (g : Grammar) : Parser Unit := do
  word "raise"
  let cause : Parser Unit := do
    let _ ← g.expression
    let _ ← perhaps (word "from" *> g.expression)
  let _ ← perhaps cause

def assertion (g : Grammar) : Parser Unit := do
  word "assert"
  let _ ← g.expression
  let _ ← perhaps (sign "," *> g.expression)

def simpleStatement (g : Grammar) : Parser (List Import) := do
  let nothing (p : Parser Unit) : Parser (List Import) := p.yielding []
  let namesAfter (w : String) : Parser Unit := word w *> (separated name).yielding ()
  match ← peek with
  | .word "import" => importModules
  | .word "from" => importFrom
  | .word "return" => nothing (word "return" *> (perhaps g.starExpressions).yielding ())
  | .word "raise" => nothing g.raised
  | .word "pass" => nothing (word "pass")
  | .word "del" => nothing g.deletion
  | .word "yield" => nothing (g.yieldExpression.yielding ())
  | .word "assert" => nothing g.assertion
  | .word "break" => nothing (word "break")
  | .word "continue" => nothing (word "continue")
  | .word "global" => nothing (namesAfter "global")
  | .word "nonlocal" => nothing (namesAfter "nonlocal")
  | _ => nothing g.expressionStatement

def simpleStatements (g : Grammar) : Parser (List Import) := do
  let first ← g.simpleStatement
  let rest ← many (sign ";" *> g.simpleStatement)
  let _ ← perhaps (sign ";")
  kind .newline
  return (first :: rest).flatten

/-! ## Compound statements -/

/-- A colon and a block: lines that are indented, or simple statements on the same line. -/
def block (g : Grammar) : Parser (List Import) := do
  sign ":"
  if (← peek) == .newline then
    kind .newline
    kind .indent
    let first ← g.statement
    let rest ← g.statements
    kind .dedent
    return first ++ rest
  else g.simpleStatements

def blockAfter (g : Grammar) (w : String) : Parser (List Import) :=
  (word w *> g.block) <|> (do
    check (!(← atWord w))
    return [])

def conditional (g : Grammar) (w : String) : Parser (List Import) := do
  word w
  let _ ← g.namedExpression
  g.block

def ifStatement (g : Grammar) : Parser (List Import) := do
  let first ← g.conditional "if"
  let others ← many (g.conditional "elif")
  let last ← g.blockAfter "else"
  return first ++ others.flatten ++ last

def whileStatement (g : Grammar) : Parser (List Import) := do
  let body ← g.conditional "while"
  let last ← g.blockAfter "else"
  return body ++ last

def forStatement (g : Grammar) : Parser (List Import) := do
  word "for"
  g.starTargets
  word "in"
  let _ ← g.starExpressions
  let body ← g.block
  let last ← g.blockAfter "else"
  return body ++ last

/-- A handler of exceptions, with or without a star. -/
def handler (g : Grammar) (starred : Bool) : Parser (List Import) := do
  word "except"
  if starred then sign "*"
  if starred || !(← atSign ":") then
    let _ ← g.expression
    asName
  g.block

def handlers (g : Grammar) (starred : Bool) : Parser (List Import) := do
  let first ← g.handler starred
  let others ← many (g.handler starred)
  check (!(← atWord "except"))
  let last ← g.blockAfter "else"
  return first ++ others.flatten ++ last

def tryStatement (g : Grammar) : Parser (List Import) := do
  word "try"
  let body ← g.block
  if ← atWord "except" then
    let handled ← g.handlers false <|> g.handlers true
    let final ← g.blockAfter "finally"
    return body ++ handled ++ final
  else
    word "finally"
    let final ← g.block
    return body ++ final

def managed (g : Grammar) : Parser Unit := do
  let _ ← g.expression
  if ← atWord "as" then
    word "as"
    let _ ← g.starTarget

/-- A statement with managed values, in parentheses or not. -/
def withStatement (g : Grammar) : Parser (List Import) := do
  word "with"
  let parenthesized : Parser Unit := do
    sign "("
    let _ ← separatedEnd g.managed
    sign ")"
    check (← atSign ":")
  let plain : Parser Unit := (separated g.managed).yielding ()
  parenthesized <|> plain
  g.block

def functionStatement (g : Grammar) : Parser (List Import) := do
  word "def"
  let _ ← name
  sign "("
  g.parameters true
  sign ")"
  let _ ← perhaps (sign "->" *> g.expression)
  g.block

def classStatement (g : Grammar) : Parser (List Import) := do
  word "class"
  let _ ← name
  if ← atSign "(" then g.arguments false
  g.block

def asyncStatement (g : Grammar) : Parser (List Import) := do
  word "async"
  match ← peek with
  | .word "def" => g.functionStatement
  | .word "for" => g.forStatement
  | .word "with" => g.withStatement
  | _ => fail

def decorated (g : Grammar) : Parser (List Import) := do
  let decorator : Parser Unit := do
    sign "@"
    let _ ← g.namedExpression
    kind .newline
  decorator
  let _ ← many decorator
  match ← peek with
  | .word "def" => g.functionStatement
  | .word "class" => g.classStatement
  | .word "async" => word "async" *> g.functionStatement
  | _ => fail

def caseBlock (g : Grammar) : Parser (List Import) := do
  word "case"
  g.casePatterns
  let _ ← perhaps (word "if" *> g.namedExpression)
  g.block

def matchStatement (g : Grammar) : Parser (List Import) := do
  word "match"
  let (subjects, comma) ← separatedEnd g.starNamedExpression
  check (comma || subjects.all (!·.starred) || 1 < subjects.length)
  sign ":"
  kind .newline
  kind .indent
  let first ← g.caseBlock
  let others ← many g.caseBlock
  kind .dedent
  return first ++ others.flatten

def statementRule (g : Grammar) : Parser (List Import) := do
  match ← peek with
  | .word "if" => g.ifStatement
  | .word "while" => g.whileStatement
  | .word "for" => g.forStatement
  | .word "try" => g.tryStatement
  | .word "with" => g.withStatement
  | .word "def" => g.functionStatement
  | .word "class" => g.classStatement
  | .word "async" => g.asyncStatement
  | .sign "@" => g.decorated
  | .word "match" => g.matchStatement <|> g.simpleStatements
  | _ => g.simpleStatements

def statementsRule (g : Grammar) : Parser (List Import) := do
  match ← peek with
  | .endOfFile => return []
  | .dedent => return []
  | _ =>
    let first ← g.statement
    let rest ← g.statements
    return first ++ rest

def rules (g : Unit → Grammar) : Grammar where
  expression := fun ts => expressionRule (g ()) ts
  disjunction := fun ts => disjunctionRule (g ()) ts
  inversion := fun ts => inversionRule (g ()) ts
  sum := fun ts => sumRule (g ()) ts
  factor := fun ts => factorRule (g ()) ts
  primary := fun ts => primaryRule (g ()) ts
  suffixes t := fun ts => suffixesRule (g ()) t ts
  pattern := fun ts => patternRule (g ()) ts
  statement := fun ts => statementRule (g ()) ts
  statements := fun ts => statementsRule (g ()) ts

def empty : Grammar where
  expression := fail
  disjunction := fail
  inversion := fail
  sum := fail
  factor := fail
  primary := fail
  suffixes _ := fail
  pattern := fail
  statement := fail
  statements := fail

/-- The grammar with at most `depth` rules inside of one another. -/
def ofDepth : (depth : Nat) → Grammar
  | 0 => empty
  | depth + 1 => rules fun _ => ofDepth depth

def file (g : Grammar) : Parser (List Import) := g.statements <* kind .endOfFile

end CodeAtlas.Python.Grammar
