import CodeAtlas.Python.Token

/-! # Parsers of Python tokens

A parser takes tokens from the front of a list, or fails. Alternatives are tried in order, and the
first one that succeeds is taken.
-/
namespace CodeAtlas.Python

def Parser (α : Type) : Type := List Token → Option (α × List Token)

namespace Parser

variable {α β : Type}

instance : Monad Parser where
  pure a := fun ts => some (a, ts)
  bind p f := fun ts => match p ts with
    | some (a, rest) => f a rest
    | none => none

def fail : Parser α := fun _ => none

/-- The second parser where the first one fails. -/
def orElse (p : Parser α) (q : Unit → Parser α) : Parser α := fun ts =>
  match p ts with
  | none => q () ts
  | some r => some r

instance : OrElse (Parser α) := ⟨orElse⟩

def yielding (p : Parser β) (a : α) : Parser α := p *> pure a

def check (condition : Bool) : Parser Unit := if condition then pure () else fail

def perhaps (p : Parser α) : Parser (Option α) := (some <$> p) <|> pure none

def peek : Parser TokenKind := fun ts =>
  some (match ts with
    | t :: _ => t.kind
    | [] => .endOfFile, ts)

def next : Parser Token := fun ts =>
  match ts with
  | t :: rest => some (t, rest)
  | [] => none

def kind (k : TokenKind) : Parser Unit := do
  let t ← next
  check (t.kind == k)

def sign (s : String) : Parser Unit := kind (.sign s)

/-- The given word, reserved or not. -/
def word (w : String) : Parser Unit := kind (.word w)

def atSign (s : String) : Parser Bool := do return (← peek) == .sign s

def atWord (w : String) : Parser Bool := do return (← peek) == .word w

def name : Parser String := do
  match (← next).kind with
  | .word w => check (!keywords.contains w) *> pure w
  | _ => fail

def oneSign (signs : List String) : Parser Unit := do
  match (← next).kind with
  | .sign s => check (signs.contains s)
  | _ => fail

def manyUpTo (p : Parser α) : (bound : Nat) → Parser (List α)
  | 0 => pure []
  | bound + 1 => (do
      let a ← p
      let rest ← manyUpTo p bound
      return a :: rest) <|> pure []

/-- As many repetitions as there are of something that is not empty. -/
def many (p : Parser α) : Parser (List α) := fun ts => manyUpTo p ts.length ts

def separated (p : Parser α) : Parser (List α) := do
  let first ← p
  let rest ← many (sign "," *> p)
  return first :: rest

/-- One or more with commas between them, and whether a comma stands behind the last one. -/
def separatedEnd (p : Parser α) : Parser (List α × Bool) := do
  let items ← separated p
  let comma ← perhaps (sign ",")
  return (items, comma.isSome)

end Parser

end CodeAtlas.Python
