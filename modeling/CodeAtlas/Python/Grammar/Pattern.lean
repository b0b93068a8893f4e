import CodeAtlas.Python.Grammar.Expression

/-! # The grammar of Python: patterns -/
namespace CodeAtlas.Python.Grammar
open CodeAtlas.Python.Parser

/-- Whether a name at hand goes on, so that it is not bound. -/
def nameGoesOn : Parser Bool := do
  return (← atSign ".") || (← atSign "(") || (← atSign "=")

def captured : Parser Unit := do
  let w ← name
  check (w != "_")
  check (!(← nameGoesOn))

/-- A name that is bound, or the low line, which is not. -/
def capturedOrNot : Parser Unit := captured <|> word "_"

def dotted : Parser Nat := do
  let _ ← name
  let rest ← many (sign "." *> name)
  return rest.length + 1

/-- A number with an optional sign, and whether it is imaginary. -/
def signedNumber : Parser Bool := do
  let _ ← perhaps (sign "-")
  match (← next).kind with
  | .number imaginary => return imaginary
  | _ => fail

def numberPattern : Parser Unit := do
  let imaginary ← signedNumber
  if (← atSign "+") || (← atSign "-") then
    oneSign ["+", "-"]
    check (!imaginary)
    match (← next).kind with
    | .number imaginary => check imaginary
    | _ => fail

def literalPattern (g : Grammar) : Parser Unit :=
  numberPattern <|> g.strings.yielding () <|> word "None" <|> word "True" <|> word "False"

def maybeStarred (g : Grammar) : Parser Unit := (sign "*" *> capturedOrNot) <|> g.pattern

def patternItems (g : Grammar) : Parser Unit := (perhaps (separatedEnd g.maybeStarred)).yielding ()

def openSequence (g : Grammar) : Parser Unit := do
  g.maybeStarred
  sign ","
  g.patternItems

def parenthesizedPattern (g : Grammar) : Parser Unit := do
  sign "("
  let empty : Parser Unit := sign ")"
  let filled : Parser Unit := do
    let starred ← atSign "*"
    g.maybeStarred
    if starred || (← atSign ",") then
      sign ","
      g.patternItems
    sign ")"
  empty <|> filled

def bracketedPattern (g : Grammar) : Parser Unit := do
  sign "["
  g.patternItems
  sign "]"

def mappingKey (g : Grammar) : Parser Unit := do
  let value : Parser Unit := do
    let n ← dotted
    check (1 < n)
  g.literalPattern <|> value

/-- A mapping in braces, at the end of which the other members may be bound. -/
def mappingPattern (g : Grammar) : Parser Unit := do
  sign "\x7b"
  let entry : Parser Unit := do
    g.mappingKey
    sign ":"
    g.pattern
  let others : Parser Unit := sign "**" *> captured
  let ended : Parser Unit := do
    let _ ← perhaps (sign ",")
    sign "\x7d"
  let entries : Parser Unit := do
    let _ ← separated entry
    let _ ← perhaps (sign "," *> others)
    ended
  sign "\x7d" <|> (others *> ended) <|> entries

def classArguments (g : Grammar) : Parser Unit := do
  sign "("
  let named : Parser Bool := do
    let _ ← name
    sign "="
    g.pattern
    return true
  let positional : Parser Bool := g.pattern.yielding false
  let items ← perhaps (separatedEnd (named <|> positional))
  sign ")"
  -- No pattern by position may follow one by name.
  check (((items.map Prod.fst).getD []).dropWhile (!·) |>.all id)

/-- A name that is bound, a value, or a class with its arguments. -/
def namePattern (g : Grammar) : Parser Unit := do
  let n ← dotted
  if ← atSign "(" then g.classArguments
  else check (!(← atSign "=") && (0 < n))

def closedPattern (g : Grammar) : Parser Unit := do
  match ← peek with
  | .sign "(" => g.parenthesizedPattern
  | .sign "[" => g.bracketedPattern
  | .sign "\x7b" => g.mappingPattern
  | _ => g.literalPattern <|> g.namePattern

def patternRule (g : Grammar) : Parser Unit := do
  g.closedPattern
  let _ ← many (sign "|" *> g.closedPattern)
  let _ ← perhaps (word "as" *> captured)

def casePatterns (g : Grammar) : Parser Unit := g.openSequence <|> g.pattern

end CodeAtlas.Python.Grammar
