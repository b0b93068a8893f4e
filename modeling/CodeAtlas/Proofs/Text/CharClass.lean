import CodeAtlas.Text.Blank
import CodeAtlas.Text.Identifier
import CodeAtlas.Text.CharClass
import Mathlib.Data.List.TakeWhile

/-! # Classes of characters

How the classes of characters lie to one another: no word holds white space, and what may open an
identifier may continue it too. Inside ASCII this is arithmetic; outside of it the tables are
compared range by range.
-/
namespace CodeAtlas.Text

theorem Ranges.contains_iff {ranges : Ranges} {n : Nat} :
    ranges.contains n = true ↔ ∃ r ∈ ranges.toList, r.1 ≤ n ∧ n ≤ r.2 := by
  rw [Ranges.contains, ← Array.any_toList, List.any_eq_true]
  simp only [Bool.and_eq_true, decide_eq_true_eq]

/-- The ranges that lie in none of the given ones, if both lists are in ascending order. -/
def uncovered : (covering : List (Nat × Nat)) → List (Nat × Nat) → List (Nat × Nat)
  | [], ranges => ranges
  | q :: covering, ranges => uncovered covering (ranges.dropWhile fun r => q.1 ≤ r.1 && r.2 ≤ q.2)

theorem mem_uncovered_or (covering : List (Nat × Nat)) {ranges : List (Nat × Nat)} {r : Nat × Nat}
    (h : r ∈ ranges) :
    r ∈ uncovered covering ranges ∨ ∃ q ∈ covering, q.1 ≤ r.1 ∧ r.2 ≤ q.2 := by
  induction covering generalizing ranges with
  | nil => exact Or.inl h
  | cons q covering ih =>
    rw [← List.takeWhile_append_dropWhile (p := fun r : Nat × Nat =>
      decide (q.1 ≤ r.1) && decide (r.2 ≤ q.2))
      (l := ranges), List.mem_append] at h
    rcases h with h | h
    · have hq := List.mem_takeWhile_imp h
      simp only [Bool.and_eq_true, decide_eq_true_eq] at hq
      exact Or.inr ⟨q, List.mem_cons_self, hq⟩
    · rcases ih h with h | ⟨q', hq', hr⟩
      · exact Or.inl h
      · exact Or.inr ⟨q', List.mem_cons_of_mem q hq', hr⟩

theorem uncovered_identifierStartRanges :
    uncovered identifierContinueRanges.toList identifierStartRanges.toList = [] := by
  decide +kernel

theorem isIdentifierContinue_of_isIdentifierStart {c : Char} (h : isIdentifierStart c = true) :
    isIdentifierContinue c = true := by
  unfold isIdentifierStart at h
  unfold isIdentifierContinue
  split at h
  next hascii =>
    rw [if_pos hascii]
    simp only [Bool.or_eq_true] at h ⊢
    exact h.imp_left fun halpha => by simp [Char.isAlphanum, halpha]
  next hascii =>
    rw [if_neg hascii, Ranges.contains_iff]
    obtain ⟨r, hr, hlow, hhigh⟩ := Ranges.contains_iff.mp h
    rcases mem_uncovered_or identifierContinueRanges.toList hr with hr | ⟨q, hq, hle, hge⟩
    · rw [uncovered_identifierStartRanges] at hr
      cases hr
    · exact ⟨q, hq, Nat.le_trans hle hlow, Nat.le_trans hhigh hge⟩

/-- White space outside ASCII. -/
def wideBlanks : List (Nat × Nat) :=
  [(0x85, 0x85), (0xA0, 0xA0), (0x1680, 0x1680), (0x2000, 0x200A), (0x2028, 0x2029),
   (0x202F, 0x202F), (0x205F, 0x205F), (0x3000, 0x3000)]

theorem wideBlanks_apart (r : Nat × Nat) (h : r ∈ alphanumericRanges.toList) :
    ∀ b ∈ wideBlanks, r.2 < b.1 ∨ b.2 < r.1 := by
  have hall : (alphanumericRanges.toList.all fun r =>
      wideBlanks.all fun b => r.2 < b.1 || b.2 < r.1) = true := by
    decide +kernel
  simpa using List.all_eq_true.mp hall r h

theorem mem_wideBlanks_of_isBlank {c : Char} (h : isBlank c = true) (hwide : ¬ c.toNat < 0x80) :
    ∃ b ∈ wideBlanks, b.1 ≤ c.toNat ∧ c.toNat ≤ b.2 := by
  simp only [isBlank, hwide, if_false, Bool.or_eq_true, Bool.and_eq_true, beq_iff_eq,
    decide_eq_true_eq] at h
  simp only [wideBlanks, List.mem_cons, List.not_mem_nil, or_false,
    exists_eq_or_imp, exists_eq_left]
  omega

theorem toNat_of_isAlphanum {c : Char} (h : c.isAlphanum = true) :
    0x30 ≤ c.toNat ∧ c.toNat ≤ 0x39 ∨ 0x41 ≤ c.toNat ∧ c.toNat ≤ 0x5A ∨
      0x61 ≤ c.toNat ∧ c.toNat ≤ 0x7A := by
  have halpha : c.isAlpha = (c.isUpper || c.isLower) := rfl
  have hupper : c.isUpper = decide (c.val ≥ 'A'.val ∧ c.val ≤ 'Z'.val) := rfl
  have hlower : c.isLower = (c.val ≥ 'a'.val && c.val ≤ 'z'.val) := rfl
  simp only [Char.isAlphanum, halpha, hupper, hlower, Char.isDigit, Bool.or_eq_true,
    Bool.and_eq_true, decide_eq_true_eq, UInt32.le_iff_toNat_le, ge_iff_le] at h
  rcases h with (h | h) | h
  · exact Or.inr (Or.inl h)
  · exact Or.inr (Or.inr h)
  · exact Or.inl h

theorem isWordChar_of_isAlphanum {c : Char} (h : c.isAlphanum = true) : isWordChar c = true := by
  have hcode := toNat_of_isAlphanum h
  have hascii : c.toNat < 0x80 := by omega
  simp [isWordChar, isAlphanumeric, hascii, h]

/-- No word holds white space. -/
theorem isWordChar_of_isBlank {c : Char} (h : isBlank c = true) : isWordChar c = false := by
  have hlow : c ≠ '_' := by
    rintro rfl
    exact absurd h (by decide)
  have hletter : isAlphanumeric c = false := by
    rw [isAlphanumeric]
    split
    next hascii =>
      refine eq_false_of_ne_true fun hletter => ?_
      have hcode := toNat_of_isAlphanum hletter
      simp only [isBlank, hascii, if_true, Bool.or_eq_true, Bool.and_eq_true, beq_iff_eq,
        decide_eq_true_eq] at h
      omega
    next hwide =>
      refine eq_false_of_ne_true fun hletter => ?_
      obtain ⟨r, hr, hrlow, hrhigh⟩ := Ranges.contains_iff.mp hletter
      obtain ⟨b, hb, hblow, hbhigh⟩ := mem_wideBlanks_of_isBlank h hwide
      have := wideBlanks_apart r hr b hb
      omega
  simp [isWordChar, hlow, hletter]

end CodeAtlas.Text
