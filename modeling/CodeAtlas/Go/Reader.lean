import CodeAtlas.Go.Literal

/-! # Readers

A reader answers all the ways in which a piece of Go can be read at a place, the preferred one
first. Mostly there is one way or none; where a brace may open a literal or a block there can be
more, and what follows decides. No way leads back in the text.
-/
namespace CodeAtlas.Go

/-- A way to read something at a place: what is read, and the place behind it. -/
structure Way (α : Type) (c : Cursor) where
  value : α
  behind : Cursor
  leads : c.Leads behind

def Way.andThen {α β : Type} {c : Cursor} (w : Way α c) (v : Way β w.behind) : Way β c :=
  ⟨v.value, v.behind, w.leads.trans v.leads⟩

/-- All the ways to read something at a place. -/
def Reader (α : Type) : Type := (c : Cursor) → List (Way α c)

namespace Reader

variable {α β : Type}

instance : Monad Reader where
  pure a := fun c => [⟨a, c, .refl c⟩]
  bind p f := fun c => (p c).flatMap fun w => (f w.value w.behind).map w.andThen

def fail : Reader α := fun _ => []

def yielding (p : Reader β) (a : α) : Reader α := p *> pure a

/-- The second reader where the first has no way. -/
def orElse (p : Reader α) (q : Unit → Reader α) : Reader α := fun c =>
  match p c with
  | [] => q () c
  | ways => ways

instance : OrElse (Reader α) := ⟨orElse⟩

/-- The ways of both readers. -/
def either (p q : Reader α) : Reader α := fun c => p c ++ q c

/-- Whether something can be read; the place stays. -/
def ahead (p : Reader α) : Reader Bool := fun c => [⟨!(p c).isEmpty, c, .refl c⟩]

def check (condition : Bool) : Reader Unit := if condition then pure () else fail

def perhaps (p : Reader α) : Reader (Option α) := (some <$> p) <|> pure none

def look (f : Cursor → α) : Reader α := fun c => [⟨f c, c, .refl c⟩]

def here : Reader Cursor := look id

def start (crossing : Bool := true) : Reader Cursor := fun c =>
  [⟨c.skip crossing, c.skip crossing, c.leads_skip crossing⟩]

def comments : Reader Nat := fun c => [⟨c.gap.2, c.gap.1, c.leads_skip true⟩]

def next? (crossing : Bool := true) : Reader (Option Char) := look fun c => (c.skip crossing).peek?

/-- Whatever a partial function of the place reads behind the gap. -/
def behindGap (f : Cursor → Option (α × Cursor)) (h : ∀ c a d, f c = some (a, d) → c.Leads d)
    (crossing : Bool) : Reader α := fun c =>
  match hf : f (c.skip crossing) with
  | some (a, d) => [⟨a, d, (c.leads_skip crossing).trans (h _ _ _ hf)⟩]
  | none => []

def passing (f : Cursor → Option Cursor) (h : ∀ c d, f c = some d → c.Leads d) (crossing : Bool) :
    Reader Unit :=
  behindGap (fun c => (f c).map ((), ·)) (fun c _ _ hf => by
    obtain ⟨_, hf, hd⟩ := Option.map_eq_some_iff.mp hf
    exact (Prod.mk.inj hd).2 ▸ h c _ hf) crossing

def token (s : String) (crossing : Bool := true) : Reader Unit :=
  passing (·.sign? s) (fun _ _ => Cursor.leads_sign?) crossing

def keyword (w : String) (crossing : Bool := true) : Reader Unit :=
  passing (·.keyword? w) (fun _ _ => Cursor.leads_keyword?) crossing

def identifier (crossing : Bool := true) : Reader String :=
  behindGap Cursor.identifier? (fun _ _ _ => Cursor.leads_identifier?) crossing

def literal (r : Literal.Recogniser) (crossing : Bool := true) : Reader Unit :=
  passing (·.literal? r) (fun _ _ => Cursor.leads_literal?) crossing

/-- A line feed, a semicolon or a zero character: what ends a statement. -/
def terminator : Reader Unit := token "\n" false <|> token ";" false <|> token "\x00" false

def textFrom (c : Cursor) : Reader (List Char) := look c.textTo

def manyUpTo (p : Reader α) : (bound : Nat) → Reader (List α)
  | 0 => pure []
  | bound + 1 => (do
      let a ← p
      let rest ← manyUpTo p bound
      return a :: rest) <|> pure []

/-- As many repetitions as there are of something that is not empty. -/
def many (p : Reader α) : Reader (List α) := fun c => manyUpTo p c.rest.length c

def commaSeparated (p : Reader α) (crossing : Bool := true) : Reader (List α) := do
  let first ← p
  let rest ← many (token "," crossing *> p)
  return first :: rest

def commaList (p : Reader α) : Reader (List α) := do
  let items ← commaSeparated p
  let _ ← perhaps (token ",")
  return items

/-- Any number of items with terminators between them, and an optional one at the end. -/
def terminatedUpTo (p : Reader α) : (bound : Nat) → Reader (List α)
  | 0 => pure []
  | bound + 1 => (do
      let a ← p
      let rest ← (terminator *> terminatedUpTo p bound) <|> pure []
      return a :: rest) <|> pure []

def terminated (p : Reader α) : Reader (List α) := fun c => terminatedUpTo p c.rest.length c

end Reader

end CodeAtlas.Go
