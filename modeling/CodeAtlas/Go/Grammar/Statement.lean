import CodeAtlas.Go.Grammar.Declaration

/-! # The grammar of Go: statements

Here the rules are tied together into the grammar, by the number of rules that may be inside of one
another.
-/
namespace CodeAtlas.Go.Grammar
open Reader

def assignmentSigns : List String :=
  ["<<=", ">>=", "&^=", ":=", "+=", "-=", "*=", "/=", "%=", "&=", "|=", "^=", "="]

def oneOf (signs : List String) (crossing : Bool := true) : Reader Unit :=
  signs.foldr (fun s other => token s crossing <|> other) fail

/-- A simple statement whose expressions stand in the given contexts, on the left and on the right;
and whether it ends in an expression. -/
def simpleStatement (g : Grammar) (left right : Context) : Reader Bool := do
  let crossing := !left.endsAtLine
  let count ← g.expressions { left with leading := true }
  let assigned : Reader Bool := do
    oneOf assignmentSigns crossing
    (g.expressions right).yielding true
  let stepped : Reader Bool := do
    check (count == 1)
    (oneOf ["++", "--"] crossing).yielding false
  let sent : Reader Bool := do
    check (count == 1)
    token "<-" crossing
    (g.expression right).yielding true
  assigned <|> stepped <|> sent <|> (check (count == 1)).yielding true

def block (g : Grammar) : Reader Unit := do
  token "\x7b"
  g.statements
  token "\x7d"

/-- An expression in front of a block. -/
def header : Context := { beforeBlock := true }

def initializer (g : Grammar) : Reader Unit := do
  let _ ← perhaps (g.simpleStatement header {} <* token ";")

def ifStatement (g : Grammar) : Reader Bool := do
  keyword "if"
  g.initializer
  g.expression header
  g.block
  let alternative : Reader Unit := do
    keyword "else" false
    if (← wordAhead) == "if" then g.statement.yielding () else g.block
  (perhaps alternative).yielding false

def loopHead (g : Grammar) : Reader Unit :=
  let range : Reader Unit := keyword "range" *> g.expression header
  let ranged : Reader Unit := do
    let _ ← g.expressions {}
    oneOf [":=", "="]
    range
  let clauses : Reader Unit := do
    let _ ← perhaps (g.simpleStatement header {})
    token ";"
    let _ ← perhaps (g.expression {})
    token ";"
    let _ ← perhaps (g.simpleStatement header header)
  range <|> ranged <|> clauses <|> g.expression header

def forStatement (g : Grammar) : Reader Bool := do
  keyword "for"
  if (← next?) != some '{' then g.loopHead
  g.block.yielding false

/-- The clauses of a switch in braces, the cases of which are read by `case`. -/
def clauses (g : Grammar) (case : Reader Unit) : Reader Unit := do
  token "\x7b"
  let clause : Reader Unit := do
    (keyword "case" *> case) <|> keyword "default"
    token ":"
    g.statements
  let _ ← many clause
  token "\x7d"

def typeSwitch (g : Grammar) : Reader Unit := do
  g.initializer
  let _ ← perhaps (g.expressions {} *> token ":=")
  g.expression header
  token "." *> token "(" *> keyword "type" *> token ")"
  g.clauses ((commaSeparated (g.type {})).yielding ())

def valueSwitch (g : Grammar) : Reader Unit := do
  g.initializer
  if (← next?) != some '{' then g.expression header
  g.clauses ((g.expressions {}).yielding ())

/-- The communication of a case: a value sent or received. -/
def communication (g : Grammar) : Reader Unit := do
  let count ← g.expressions { leading := true }
  let sent : Reader Unit := check (count == 1) *> token "<-" *> g.expression {}
  let received : Reader Unit := oneOf [":=", "="] *> g.expression {}
  sent <|> received <|> check (count == 1)

def label : Reader Unit := do
  let _ ← identifier
  token ":" false
  let c ← here
  check (c.peek? != some '=')

def jump (word : String) : Reader Bool := do
  keyword word
  (perhaps (identifier false)).yielding false

def keywordStatement (g : Grammar) : String → Reader Bool
  | "const" => Prod.snd <$> valueDeclaration "const" g.constantSpec
  | "var" => Prod.snd <$> valueDeclaration "var" g.variableSpec
  | "type" => g.typeDeclaration.yielding false
  | "return" => do
    keyword "return"
    if (← next? false) == some '\n' then return false
    return (← perhaps (g.expressions ending)).isSome
  | "go" => keyword "go" *> (g.expression ending).yielding true
  | "defer" => keyword "defer" *> (g.expression ending).yielding true
  | "if" => g.ifStatement
  | "for" => g.forStatement
  | "switch" => keyword "switch" *> (g.typeSwitch <|> g.valueSwitch).yielding false
  | "select" => keyword "select" *> (g.clauses g.communication).yielding false
  | "fallthrough" => (keyword "fallthrough").yielding false
  | "break" => jump "break"
  | "continue" => jump "continue"
  | "goto" => keyword "goto" *> identifier.yielding false
  | _ => g.simpleStatement ending ending

/-- One statement, and whether it ends in an expression. -/
def statementRule (g : Grammar) : Reader Bool := do
  match ← next? with
  | some ';' => (token ";").yielding false
  | some '{' => g.block.yielding false
  | _ =>
    if ← ahead label then label *> g.statement
    else
      let word ← wordAhead
      if Cursor.reserved.contains word then g.keywordStatement word
      else g.simpleStatement ending ending

/-- Statements with terminators between them. The last one may be a label alone. -/
def statementsRule (g : Grammar) : Reader Unit :=
  let first : Reader Unit := do
    let _ ← g.statement
    (terminator *> g.statements) <|> pure ()
  first <|> label <|> pure ()

/-- The rules in terms of one another. -/
def rules (g : Unit → Grammar) : Grammar where
  type ctx := fun c => typeRule (g ()) ctx c
  expression ctx := fun c => expressionRule (g ()) ctx c
  unary ctx := fun c => unaryRule (g ()) ctx c
  operators ctx := fun c => operatorsRule (g ()) ctx c
  suffixes o ctx := fun c => suffixesRule (g ()) o ctx c
  literalValue := fun c => literalValueRule (g ()) c
  statements := fun c => statementsRule (g ()) c
  statement := fun c => statementRule (g ()) c

def empty : Grammar where
  type _ := fail
  expression _ := fail
  unary _ := fail
  operators _ := fail
  suffixes _ _ := fail
  literalValue := fail
  statements := fail
  statement := fail

/-- The grammar with at most `depth` rules inside of one another. -/
def ofDepth : (depth : Nat) → Grammar
  | 0 => empty
  | depth + 1 => rules fun _ => ofDepth depth

/-- The grammar for a text of the given length: no rule goes deeper than its tokens allow. -/
def forLength (length : Nat) : Grammar := ofDepth (8 * length + 64)

end CodeAtlas.Go.Grammar
