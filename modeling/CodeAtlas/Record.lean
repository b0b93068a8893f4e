import CodeAtlas.Text.Blank
import CodeAtlas.Text.Lines
import CodeAtlas.Value

/-! # Records read from dynamic values

A record is read field by field, and every fault is reported with the place where it stands, not
just the first one. Numbers and truth values are also accepted in their usual spellings as text.
-/
namespace CodeAtlas.Record
open Text

inductive Step where
  | field (name : String)
  | element (index : Nat)
  deriving DecidableEq, Repr

inductive Fault where
  | missing
  | unknownField
  | notText
  | notList
  | notRecord
  | notTruth
  | notTruthText
  | notInteger
  | notIntegerText
  | integerTextTooLong
  | fractional
  | notFinite
  | belowMinimum (least : Int)
  | notOneOf (choices : List String)
  | outsideRoot (path : String)
  deriving DecidableEq, Repr

/-- The message for a refused value, where it says more than the kind of fault. -/
def Fault.explanation? : Fault → Option String
  | .outsideRoot path =>
    some ("ignore_file '" ++ path ++ "' must be a relative path within the repo root")
  | _ => none

def Fault.description : Fault → String
  | .missing => "Field required"
  | .unknownField => "Extra inputs are not permitted"
  | .notText => "Input should be a valid string"
  | .notList => "Input should be a valid list"
  | .notRecord => "Input should be a valid dictionary"
  | .notTruth => "Input should be a valid boolean"
  | .notTruthText => "Input should be a valid boolean, unable to interpret input"
  | .notInteger => "Input should be a valid integer"
  | .notIntegerText => "Input should be a valid integer, unable to parse string as an integer"
  | .integerTextTooLong =>
    "Unable to parse input string as an integer, exceeded maximum size"
  | .fractional => "Input should be a valid integer, got a number with a fractional part"
  | .notFinite => "Input should be a finite number"
  | .belowMinimum least => "Input should be greater than or equal to " ++ toString least
  | .notOneOf choices => "Input should be one of " ++ ", ".intercalate choices
  | .outsideRoot path => "Value error, " ++ ((Fault.outsideRoot path).explanation?.getD "")

structure Problem where
  place : List Step
  fault : Fault
  deriving DecidableEq, Repr

def Step.label : Step → String
  | .field name => name
  | .element index => toString index

/-- A problem in two lines: its place, and what is wrong there. -/
def Problem.lines (p : Problem) : String :=
  "\n" ++ ".".intercalate (p.place.map (·.label)) ++ "\n  " ++ p.fault.description

/-- The outcome of reading: a value, or all the problems in order. -/
inductive Checked (α : Type) where
  | ok (value : α)
  | refused (problems : List Problem)
  deriving DecidableEq, Repr

namespace Checked

variable {α β : Type}

def map (f : α → β) : Checked α → Checked β
  | ok a => ok (f a)
  | refused ps => refused ps

/-- Applies a function to a value; the problems of both are kept. -/
def apply : Checked (α → β) → Checked α → Checked β
  | ok f, ok a => ok (f a)
  | ok _, refused ps => refused ps
  | refused ps, ok _ => refused ps
  | refused ps, refused qs => refused (ps ++ qs)

instance : Applicative Checked where
  pure := ok
  map := map
  seq f x := apply f (x ())

def andThen (x : Checked α) (f : α → Checked β) : Checked β :=
  match x with
  | ok a => f a
  | refused ps => refused ps

def under (step : Step) : Checked α → Checked α
  | ok a => ok a
  | refused ps => refused (ps.map fun p => { p with place := step :: p.place })

def fault (f : Fault) : Checked α := refused [⟨[], f⟩]

end Checked

abbrev Reader (α : Type) := Value → Checked α

def text : Reader String
  | .string s => .ok s
  | _ => .fault .notText

def truthWords : List (String × Bool) :=
  [("0", false), ("off", false), ("f", false), ("false", false), ("n", false), ("no", false),
   ("1", true), ("on", true), ("t", true), ("true", true), ("y", true), ("yes", true)]

/-- A truth value, one of the numbers zero and one, or a word for it in any case. -/
def truth : Reader Bool
  | .bool b => .ok b
  | .int n => if n = 0 then .ok false else if n = 1 then .ok true else .fault .notTruthText
  | .float x => match (Value.binary? x).bind Value.Binary.toInt? with
    | some 0 => .ok false
    | some 1 => .ok true
    | some _ => .fault .notTruthText
    | none => .fault .notTruth
  | .string s => match truthWords.lookup s.toLower with
    | some b => .ok b
    | none => .fault .notTruthText
  | _ => .fault .notTruth

/-- The number that decimal digits write, single low lines between them allowed. `pending` says
that a low line has just been read. -/
def digitsFrom (value : Nat) (pending : Bool) : List Char → Option Nat
  | [] => if pending then none else some value
  | c :: rest =>
    if c.isDigit then digitsFrom (value * 10 + (c.toNat - '0'.toNat)) false rest
    else if c = '_' && !pending then digitsFrom value true rest
    else none

def digits? (digits : List Char) : Option Nat :=
  if digits.head?.any Char.isDigit then digitsFrom 0 false digits else none

/-- An integer as text: trimmed, with an optional sign and an optional fraction of zeros. -/
def integerText? (s : String) : Option Int :=
  let body := trim s.toList
  let (negative, body) := match body with
    | '-' :: rest => (true, rest)
    | '+' :: rest => (false, rest)
    | _ => (false, body)
  let (whole, fraction) := body.span (· != '.')
  let plain := match fraction with
    | [] => true
    | _ :: zeros => !zeros.isEmpty && zeros.all (· == '0')
  if plain then (digits? whole).map fun n => if negative then -(n : Int) else n else none

/-- The number of digits that an integer may have in a text, zeros in front of it not counted. -/
def maxTextDigits : Nat := 4300

/-- An integer, a truth value, a float without a fraction, or an integer as text. -/
def integer : Reader Int
  | .int n => .ok n
  | .bool b => .ok (if b then 1 else 0)
  | .float x => match Value.binary? x with
    | none => .fault .notFinite
    | some b => match b.toInt? with
      | some n => .ok n
      | none => .fault .fractional
  | .string s => match integerText? s with
    | some n => if Nat.pow 10 maxTextDigits ≤ n.natAbs then .fault .integerTextTooLong else .ok n
    | none => .fault .notIntegerText
  | _ => .fault .notInteger

def integerFrom (least : Int) : Reader Int := fun v =>
  (integer v).andThen fun n => if n < least then .fault (.belowMinimum least) else .ok n

def elementsFrom {α : Type} (element : Reader α) : Nat → List Value → Checked (List α)
  | _, [] => .ok []
  | index, v :: rest =>
    List.cons <$> (element v).under (.element index) <*> elementsFrom element (index + 1) rest

def list {α : Type} (element : Reader α) : Reader (List α)
  | .array items => elementsFrom element 0 items
  | _ => .fault .notList

def optional {α : Type} (reader : Reader α) : Reader (Option α)
  | .null => .ok none
  | v => some <$> reader v

def required {α : Type} (fields : List (String × Value)) (name : String) (reader : Reader α) :
    Checked α :=
  match fields.lookup name with
  | some v => (reader v).under (.field name)
  | none => .refused [⟨[.field name], .missing⟩]

def withDefault {α : Type} (fields : List (String × Value)) (name : String) (reader : Reader α)
    (default : α) : Checked α :=
  match fields.lookup name with
  | some v => (reader v).under (.field name)
  | none => .ok default

def record {α : Type} (read : List (String × Value) → Checked α) : Reader α
  | .table fields => read fields
  | _ => .fault .notRecord

def noOthers (known : List String) (fields : List (String × Value)) : Checked Unit :=
  match fields.filter (!known.contains ·.1) with
  | [] => .ok ()
  | unknown => .refused (unknown.map fun (name, _) => ⟨[.field name], .unknownField⟩)

end CodeAtlas.Record
