/-! # Reading UTF-8

A byte string is read one byte at a time by a machine whose state says how many continuation
bytes are owed and in which range the next one lies. A maximal ill-formed run is read as one
replacement character; the strict reader refuses it instead.
-/
namespace CodeAtlas.Text.Utf8

def replacement : Char := Char.ofNat 0xFFFD

inductive State where
  | start
  /-- `owed + 1` continuation bytes are missing, the next one within `low` and `high`;
  `value` is what the earlier bytes of the character contribute. -/
  | within (owed value low high : Nat)
  deriving DecidableEq, Repr

/-- One event of the reader: a character, or a run of bytes that is none. -/
inductive Event where
  | char (c : Char)
  | illFormed
  deriving DecidableEq, Repr

def lead (b : Nat) : List Event × State :=
  if b < 0x80 then ([.char (Char.ofNat b)], .start)
  else if 0xC2 ≤ b ∧ b ≤ 0xDF then ([], .within 0 (b - 0xC0) 0x80 0xBF)
  else if b = 0xE0 then ([], .within 1 0 0xA0 0xBF)
  else if b = 0xED then ([], .within 1 0xD 0x80 0x9F)
  else if 0xE1 ≤ b ∧ b ≤ 0xEF then ([], .within 1 (b - 0xE0) 0x80 0xBF)
  else if b = 0xF0 then ([], .within 2 0 0x90 0xBF)
  else if 0xF1 ≤ b ∧ b ≤ 0xF3 then ([], .within 2 (b - 0xF0) 0x80 0xBF)
  else if b = 0xF4 then ([], .within 2 4 0x80 0x8F)
  else ([.illFormed], .start)

/-- One byte. A byte that cannot continue the character at hand ends an ill-formed run and is
read afresh. -/
def step : State → Nat → List Event × State
  | .start, b => lead b
  | .within owed value low high, b =>
    if low ≤ b ∧ b ≤ high then
      let value := value * 64 + (b - 0x80)
      match owed with
      | 0 => ([.char (Char.ofNat value)], .start)
      | owed + 1 => ([], .within owed value 0x80 0xBF)
    else
      let (events, state) := lead b
      (.illFormed :: events, state)

def eventsFrom : State → List UInt8 → List Event
  | .start, [] => []
  | .within .., [] => [.illFormed]
  | state, b :: rest =>
    let (events, state) := step state b.toNat
    events ++ eventsFrom state rest

/-- Reads every byte string; each maximal ill-formed run becomes one replacement character. -/
def decode (bytes : List UInt8) : List Char :=
  (eventsFrom .start bytes).map fun
    | .char c => c
    | .illFormed => replacement

def decode? (bytes : List UInt8) : Option (List Char) :=
  (eventsFrom .start bytes).mapM fun
    | .char c => some c
    | .illFormed => none

def encode (text : List Char) : List UInt8 :=
  (String.ofList text).toUTF8.toList

end CodeAtlas.Text.Utf8
