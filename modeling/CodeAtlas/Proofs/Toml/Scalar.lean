import CodeAtlas.Proofs.Text.Find
import CodeAtlas.Toml.Scalar
import Mathlib.Data.List.Infix

/-! # What the readers of scalars take

A reader takes some text from the beginning and answers what is left. Of the digits of a number it
takes the text in which they stand, with single low lines between them.
-/
namespace CodeAtlas.Toml
open Text

/-- Whether what a reader leaves is always the end of its text. -/
def Takes {α : Type} (scan : Scan α) : Prop :=
  ∀ text a rest, scan text = some (a, rest) → rest <:+ text

section Suffix
variable {α : Type} {c : Char} {text rest : List Char}

theorem suffix_cons_of_suffix (h : rest <:+ text) : rest <:+ c :: text :=
  h.trans (List.suffix_cons c text)

theorem suffix_of_literal {head : String} (h : literal head text = some rest) : rest <:+ text := by
  rw [after?_eq_some_iff.mp h]
  exact List.suffix_append _ _

end Suffix

/-! ## Strings -/

section Strings
variable {text rest found taken : List Char}

theorem takes_numbered (length : Nat) : Takes (numbered length) := by
  intro text c rest h
  simp only [numbered, Option.bind_eq_bind, Option.bind_eq_some_iff] at h
  obtain ⟨digits, -, h⟩ := h
  split at h
  · obtain ⟨d, -, h⟩ := Option.bind_eq_some_iff.mp h
    obtain ⟨-, rfl⟩ := Prod.mk.inj (Option.some.inj h)
    exact List.drop_suffix length text
  · cases h

theorem takes_escape : Takes escape := by
  intro text c rest h
  unfold escape at h
  split at h
  case h_8 rest' | h_9 rest' => exact suffix_cons_of_suffix (takes_numbered _ _ _ _ h)
  case h_10 => cases h
  all_goals
    obtain ⟨-, rfl⟩ := Prod.mk.inj (Option.some.inj h)
    exact List.suffix_cons _ _

theorem suffix_of_lineContinuation (h : lineContinuation text = some rest) : rest <:+ text := by
  cases text with
  | nil => cases h
  | cons c text =>
    rw [lineContinuation] at h
    split_ifs at h
    · obtain rfl := Option.some.inj h
      exact suffix_cons_of_suffix (List.dropWhile_suffix _)
    · apply suffix_cons_of_suffix
      refine List.IsSuffix.trans ?_ (List.dropWhile_suffix isSpace)
      split at h
      next => exact Option.some.inj h ▸ List.nil_suffix
      next heq =>
        rw [heq]
        obtain rfl := Option.some.inj h
        exact suffix_cons_of_suffix (List.dropWhile_suffix _)
      next => cases h

theorem suffix_of_basicFrom {multiline : Bool} {bound : Nat}
    (h : basicFrom multiline bound found text = some (taken, rest)) : rest <:+ text := by
  fun_induction basicFrom multiline bound found text with
  | case1 => cases h
  | case2 => cases h
  | case3 =>
    obtain ⟨-, rfl⟩ := Prod.mk.inj (Option.some.inj h)
    exact List.suffix_cons _ _
  | case4 =>
    obtain ⟨-, rfl⟩ := Prod.mk.inj (Option.some.inj h)
    exact suffix_cons_of_suffix (suffix_cons_of_suffix (List.suffix_cons _ _))
  | case5 _ _ _ _ _ _ _ ih => exact suffix_cons_of_suffix (ih h)
  | case6 _ _ _ behind _ _ next hnext ih =>
    -- only a string of several lines goes on behind the end of a line
    split_ifs at hnext
    exact suffix_cons_of_suffix ((ih h).trans (suffix_of_lineContinuation hnext))
  | case7 _ _ _ _ _ _ _ _ _ hescape ih =>
    exact suffix_cons_of_suffix ((ih h).trans (takes_escape _ _ _ hescape))
  | case8 => cases h
  | case9 => cases h
  | case10 _ _ _ _ _ _ _ ih => exact suffix_cons_of_suffix (ih h)

theorem suffix_of_literalFrom {multiline : Bool}
    (h : literalFrom multiline found text = some (taken, rest)) : rest <:+ text := by
  fun_induction literalFrom multiline found text with
  | case1 => cases h
  | case2 =>
    obtain ⟨-, rfl⟩ := Prod.mk.inj (Option.some.inj h)
    exact List.suffix_cons _ _
  | case3 =>
    obtain ⟨-, rfl⟩ := Prod.mk.inj (Option.some.inj h)
    exact suffix_cons_of_suffix (suffix_cons_of_suffix (List.suffix_cons _ _))
  | case4 _ _ _ _ _ _ ih => exact suffix_cons_of_suffix (ih h)
  | case5 => cases h
  | case6 _ _ _ _ _ ih => exact suffix_cons_of_suffix (ih h)

theorem suffix_extraQuotes (quote : Char) (taken text : List Char) :
    (extraQuotes quote taken text).2 <:+ text := by
  unfold extraQuotes
  split
  · split_ifs
    · exact suffix_cons_of_suffix (List.suffix_cons _ _)
    · exact List.suffix_cons _ _
    · exact List.suffix_refl _
  · split_ifs
    · exact List.nil_suffix
    · exact List.suffix_refl _
  · exact List.suffix_refl _

theorem suffix_skipLineFeed (text : List Char) : skipLineFeed text <:+ text := by
  unfold skipLineFeed
  split
  · exact List.suffix_cons _ _
  · exact List.suffix_refl _

theorem takes_lineString : Takes lineString := by
  intro text s rest h
  unfold lineString at h
  split at h
  · obtain ⟨⟨taken, behind⟩, htaken, h⟩ := Option.bind_eq_some_iff.mp h
    obtain ⟨-, rfl⟩ := Prod.mk.inj (Option.some.inj h)
    exact suffix_cons_of_suffix (suffix_of_basicFrom htaken)
  · obtain ⟨⟨taken, behind⟩, htaken, h⟩ := Option.bind_eq_some_iff.mp h
    obtain ⟨-, rfl⟩ := Prod.mk.inj (Option.some.inj h)
    exact suffix_cons_of_suffix (suffix_of_literalFrom htaken)
  · cases h

theorem takes_string : Takes string := by
  intro text s rest h
  unfold string at h
  split at h
  · obtain ⟨⟨taken, behind⟩, htaken, h⟩ := Option.bind_eq_some_iff.mp h
    obtain ⟨-, rfl⟩ := Prod.mk.inj (Option.some.inj h)
    apply suffix_cons_of_suffix ∘ suffix_cons_of_suffix ∘ suffix_cons_of_suffix
    exact (suffix_extraQuotes _ _ _).trans
      ((suffix_of_basicFrom htaken).trans (suffix_skipLineFeed _))
  · obtain ⟨⟨taken, behind⟩, htaken, h⟩ := Option.bind_eq_some_iff.mp h
    obtain ⟨-, rfl⟩ := Prod.mk.inj (Option.some.inj h)
    apply suffix_cons_of_suffix ∘ suffix_cons_of_suffix ∘ suffix_cons_of_suffix
    exact (suffix_extraQuotes _ _ _).trans
      ((suffix_of_literalFrom htaken).trans (suffix_skipLineFeed _))
  · exact takes_lineString _ _ _ h

end Strings

/-! ## Numbers -/

/-- A text that writes digits of a base: the digits themselves, and low lines. -/
structure IsDigits (base : Nat) (run : List Char) (count : Nat) : Prop where
  chars : ∀ c ∈ run, (digit? base c).isSome = true ∨ c = '_'
  count_eq : run.countP (fun c => (digit? base c).isSome) = count

section Numbers
variable {base : Nat} {text rest run : List Char} {found ds : List Nat}

theorem IsDigits.nil : IsDigits base [] 0 := ⟨by simp, rfl⟩

theorem IsDigits.cons_digit {c : Char} {count : Nat} (hc : (digit? base c).isSome = true)
    (h : IsDigits base run count) : IsDigits base (c :: run) (count + 1) where
  chars := List.forall_mem_cons.mpr ⟨.inl hc, h.chars⟩
  count_eq := by rw [List.countP_cons, if_pos hc, h.count_eq]

theorem IsDigits.cons_lowLine {count : Nat} (h : IsDigits base run count) :
    IsDigits base ('_' :: run) count where
  chars := List.forall_mem_cons.mpr ⟨.inr rfl, h.chars⟩
  count_eq := by
    have hnone : digit? base '_' = none := rfl
    rw [List.countP_cons, hnone, if_neg (by decide), h.count_eq]
    rfl

/-- The digits are taken with the text that they stand in. -/
theorem exists_of_digitsFrom (h : digitsFrom base found text = (ds, rest)) :
    ∃ run count, text = run ++ rest ∧ IsDigits base run count ∧
      ds.length = found.length + count := by
  fun_induction digitsFrom base found text with
  | case1 found =>
    obtain ⟨rfl, rfl⟩ := Prod.mk.inj h
    exact ⟨[], 0, rfl, .nil, by simp⟩
  | case2 found c text d hd ih =>
    obtain ⟨run, count, rfl, hrun, hlength⟩ := ih h
    have hc : (digit? base c).isSome = true := by rw [hd]; rfl
    refine ⟨'_' :: c :: run, count + 1, rfl, (hrun.cons_digit hc).cons_lowLine, ?_⟩
    rw [hlength, List.length_cons]
    omega
  | case3 found c text hd =>
    obtain ⟨rfl, rfl⟩ := Prod.mk.inj h
    exact ⟨[], 0, rfl, .nil, by simp⟩
  | case4 found c text _ d hd ih =>
    obtain ⟨run, count, rfl, hrun, hlength⟩ := ih h
    have hc : (digit? base c).isSome = true := by rw [hd]; rfl
    refine ⟨c :: run, count + 1, rfl, hrun.cons_digit hc, ?_⟩
    rw [hlength, List.length_cons]
    omega
  | case5 found c text _ hd =>
    obtain ⟨rfl, rfl⟩ := Prod.mk.inj h
    exact ⟨[], 0, rfl, .nil, by simp⟩

theorem exists_of_digits (h : digits base text = some (ds, rest)) :
    ∃ run, text = run ++ rest ∧ IsDigits base run ds.length := by
  cases text with
  | nil => cases h
  | cons c text =>
    obtain ⟨d, hd, h⟩ := Option.bind_eq_some_iff.mp h
    obtain ⟨run, count, rfl, hrun, hlength⟩ := exists_of_digitsFrom (Option.some.inj h)
    have hc : (digit? base c).isSome = true := by rw [hd]; rfl
    refine ⟨c :: run, rfl, ?_⟩
    rw [hlength, Nat.add_comm]
    exact hrun.cons_digit hc

theorem takes_digits (base : Nat) : Takes (digits base) := by
  intro text ds rest h
  obtain ⟨run, rfl, -⟩ := exists_of_digits h
  exact List.suffix_append run rest

theorem suffix_signed (text : List Char) : (signed text).2 <:+ text := by
  unfold signed
  split
  · exact List.suffix_cons _ _
  · exact List.suffix_cons _ _
  · exact List.suffix_refl _

theorem takes_based : Takes based := by
  intro text v rest h
  unfold based at h
  split at h
  case h_4 => cases h
  all_goals
    obtain ⟨⟨ds, behind⟩, hds, h⟩ := Option.map_eq_some_iff.mp h
    obtain ⟨-, rfl⟩ := Prod.mk.inj h
    exact suffix_cons_of_suffix (suffix_cons_of_suffix (takes_digits _ _ _ _ hds))

theorem suffix_fraction (text : List Char) : (fraction text).2 <:+ text := by
  unfold fraction
  split
  next rest =>
    cases h : digits 10 rest with
    | none => exact List.suffix_refl _
    | some found => exact suffix_cons_of_suffix (takes_digits 10 _ _ _ h)
  next => exact List.suffix_refl _

theorem suffix_exponent (text : List Char) : (exponent text).2 <:+ text := by
  cases text with
  | nil => exact List.suffix_refl _
  | cons c rest =>
    by_cases hc : (c == 'e' || c == 'E') = true
    · simp only [exponent, if_pos hc]
      cases h : digits 10 (signed rest).2 with
      | none => exact List.suffix_refl _
      | some found =>
        exact suffix_cons_of_suffix ((takes_digits 10 _ _ _ h).trans (suffix_signed rest))
    · simp only [exponent, if_neg hc]
      exact List.suffix_refl _

theorem exists_of_wholePart (h : wholePart text = some (ds, rest)) :
    ∃ run, text = run ++ rest ∧ IsDigits 10 run ds.length := by
  unfold wholePart at h
  split at h
  next rest' =>
    obtain ⟨rfl, rfl⟩ := Prod.mk.inj (Option.some.inj h)
    exact ⟨['0'], rfl, IsDigits.cons_digit rfl .nil⟩
  next => exact exists_of_digits h

/-- A number in base ten is taken with the text of its whole part. -/
theorem exists_of_decimal {d : Decimal} (h : decimal text = some (d, rest)) :
    rest <:+ text ∧ ∃ run, run <:+: text ∧ IsDigits 10 run d.whole.length := by
  obtain ⟨⟨whole, behind⟩, hwhole, h⟩ := Option.bind_eq_some_iff.mp h
  obtain ⟨rfl, rfl⟩ := Prod.mk.inj (Option.some.inj h)
  obtain ⟨run, hrun, hdigits⟩ := exists_of_wholePart hwhole
  have hbody : run ++ behind <:+ text := hrun ▸ suffix_signed text
  constructor
  · exact (suffix_exponent _).trans ((suffix_fraction _).trans
      ((List.suffix_append run behind).trans hbody))
  · exact ⟨run, (List.prefix_append run behind).isInfix.trans hbody.isInfix, hdigits⟩

theorem takes_special : Takes special := by
  intro text v rest h
  have hbody := suffix_signed text
  simp only [special] at h
  split at h
  case h_3 => cases h
  all_goals
    next heq =>
    obtain ⟨-, rfl⟩ := Prod.mk.inj (Option.some.inj h)
    rw [heq] at hbody
    refine List.IsSuffix.trans ?_ hbody
    exact suffix_cons_of_suffix (suffix_cons_of_suffix (List.suffix_cons _ _))

end Numbers

/-! ## Dates and times -/

section Moments
variable {text rest : List Char}

theorem takes_fixed (length : Nat) : Takes (fixed length) := by
  intro text n rest h
  obtain ⟨ds, -, h⟩ := Option.bind_eq_some_iff.mp h
  split at h
  · obtain ⟨-, rfl⟩ := Prod.mk.inj (Option.some.inj h)
    exact List.drop_suffix length text
  · cases h

theorem takes_date : Takes date := by
  intro text b rest h
  simp only [date, Option.bind_eq_bind, Option.bind_eq_some_iff] at h
  obtain ⟨⟨year, r₁⟩, hyear, r₂, hdash, ⟨month, r₃⟩, hmonth, r₄, hdash', ⟨day, r₅⟩, hday, h⟩ := h
  split at h
  · obtain ⟨-, rfl⟩ := Prod.mk.inj (Option.some.inj h)
    calc r₅ <:+ r₄ := takes_fixed 2 _ _ _ hday
      _ <:+ r₃ := suffix_of_literal hdash'
      _ <:+ r₂ := takes_fixed 2 _ _ _ hmonth
      _ <:+ r₁ := suffix_of_literal hdash
      _ <:+ text := takes_fixed 4 _ _ _ hyear
  · cases h

theorem suffix_secondFraction (text : List Char) : secondFraction text <:+ text := by
  unfold secondFraction
  split
  · split_ifs
    · exact suffix_cons_of_suffix (suffix_cons_of_suffix (List.dropWhile_suffix _))
    · exact List.suffix_refl _
  · exact List.suffix_refl _

theorem suffix_of_clock (h : clock text = some rest) : rest <:+ text := by
  simp only [clock, Option.bind_eq_bind, Option.bind_eq_some_iff] at h
  obtain ⟨⟨hour, r₁⟩, hhour, r₂, hcolon, ⟨minute, r₃⟩, hminute, h⟩ := h
  split at h
  · obtain rfl := Option.some.inj h
    exact (takes_fixed 2 _ _ _ hminute).trans
      ((suffix_of_literal hcolon).trans (takes_fixed 2 _ _ _ hhour))
  · cases h

theorem suffix_of_timeOfDay (h : timeOfDay text = some rest) : rest <:+ text := by
  simp only [timeOfDay, Option.bind_eq_bind, Option.bind_eq_some_iff] at h
  obtain ⟨r₁, hclock, r₂, hcolon, ⟨second, r₃⟩, hsecond, h⟩ := h
  split at h
  · obtain rfl := Option.some.inj h
    calc secondFraction r₃ <:+ r₃ := suffix_secondFraction r₃
      _ <:+ r₂ := takes_fixed 2 _ _ _ hsecond
      _ <:+ r₁ := suffix_of_literal hcolon
      _ <:+ text := suffix_of_clock hclock
  · cases h

theorem suffix_timeOffset (text : List Char) : timeOffset text <:+ text := by
  unfold timeOffset
  split
  next c rest =>
    split_ifs
    · exact List.suffix_cons _ _
    · cases h : clock rest with
      | none => exact List.suffix_refl _
      | some behind => exact suffix_cons_of_suffix (suffix_of_clock h)
    · exact List.suffix_refl _
  next => exact List.suffix_refl _

theorem suffix_timeAfterDate (text : List Char) : timeAfterDate text <:+ text := by
  unfold timeAfterDate
  split
  next c rest =>
    split_ifs
    · split
      next heq =>
        exact suffix_cons_of_suffix ((suffix_timeOffset _).trans (suffix_of_timeOfDay heq))
      next => exact List.suffix_refl _
    · exact List.suffix_refl _
  next => exact List.suffix_refl _

end Moments

end CodeAtlas.Toml
