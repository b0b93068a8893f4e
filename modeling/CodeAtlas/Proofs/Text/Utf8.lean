import CodeAtlas.Text.Utf8

/-! # Reading UTF-8 piece by piece

A byte below 128 is a character of its own wherever it stands: it continues no other character, and
an ill-formed run ends in front of it. So a byte string may be cut there, and the pieces read by
themselves.
-/
namespace CodeAtlas.Text.Utf8

/-- The next byte that a state waits for, if any, lies outside of the ASCII range. -/
def State.IsSound : State → Prop
  | .start => True
  | .within _ _ low _ => 0x80 ≤ low

theorem isSound_lead (b : Nat) : (lead b).2.IsSound := by
  unfold lead
  repeat' split
  all_goals simp [State.IsSound]

theorem isSound_step (state : State) (b : Nat) : (step state b).2.IsSound := by
  cases state with
  | start => exact isSound_lead b
  | within owed value low high =>
    by_cases hb : low ≤ b ∧ b ≤ high
    · cases owed <;> simp [step, hb, State.IsSound]
    · simp only [step, hb, if_false]
      exact isSound_lead b

theorem eventsFrom_append {state : State} (hstate : state.IsSound) (front : List UInt8) {b : UInt8}
    (hb : b.toNat < 0x80) (rest : List UInt8) :
    eventsFrom state (front ++ b :: rest) =
      eventsFrom state front ++ .char (Char.ofNat b.toNat) :: eventsFrom .start rest := by
  induction front generalizing state with
  | nil =>
    cases state with
    | start => simp [eventsFrom, step, lead, hb]
    | within owed value low high =>
      have hlow : ¬ low ≤ b.toNat := Nat.not_le.mpr (Nat.lt_of_lt_of_le hb hstate)
      simp [eventsFrom, step, lead, hb, hlow]
  | cons first front ih =>
    simp only [List.cons_append, eventsFrom, ih (isSound_step state first.toNat), List.append_assoc]

/-- A text may be cut at each of its ASCII characters before it is read. -/
theorem decode_append (front : List UInt8) {b : UInt8} (hb : b.toNat < 0x80) (rest : List UInt8) :
    decode (front ++ b :: rest) = decode front ++ Char.ofNat b.toNat :: decode rest := by
  have hstart : State.start.IsSound := trivial
  simp [decode, eventsFrom_append hstart front hb rest]

end CodeAtlas.Text.Utf8
