import CodeAtlas.Proofs.Outline.Indented.Declaration
import CodeAtlas.Proofs.Text.Stop

/-! # The extent of a Python block

Where a block ends can be said without the scan that looks for the end. Up to there all code is
indented deeper than the header or begins with a closing bracket, and the next code behind it is
neither. Blank lines and comments in between would leave the place open, so the last line has to be
one of code. There is one such place, and the scan finds it.
-/
namespace CodeAtlas.Outline.Indented
open Text

/-! ## One line -/

/-- The first character of a line that is no white space. -/
def lead? (raw : List Char) : Option Char := raw.find? fun c => !isBlank c

/-- Whether a line holds code: it is neither blank nor a comment. -/
def isSignificant (raw : List Char) : Bool := (lead? raw).any (· != '#')

/-- Whether a line begins with a closing bracket, behind its white space. -/
def beginsClosing (raw : List Char) : Bool :=
  (lead? raw).any fun c => c == ')' || c == ']' || c == '}'

section Line
variable {raw : List Char}

theorem head?_trim (raw : List Char) : (trim raw).head? = lead? raw := by
  induction raw with
  | nil => rfl
  | cons c raw ih =>
    cases hc : isBlank c with
    | true =>
      have hstart : trimStart (c :: raw) = trimStart raw := by simp [trimStart, hc]
      rw [trim, hstart, lead?, List.find?_cons_of_neg (by simp [hc])]
      exact ih
    | false =>
      have hstart : trimStart (c :: raw) = [] ++ c :: raw := by simp [trimStart, hc]
      rw [trim, hstart, trimEnd_append hc, lead?, List.find?_cons_of_pos (by simp [hc])]
      rfl

theorem isSkippable_trim (raw : List Char) : isSkippable (trim raw) = !isSignificant raw := by
  rw [isSignificant, ← head?_trim]
  cases trim raw with
  | nil => rfl
  | cons c rest => simp [isSkippable, bne]

theorem closesBracket_trim (raw : List Char) : closesBracket (trim raw) = beginsClosing raw := by
  rw [beginsClosing, ← head?_trim]
  cases trim raw with
  | nil => rfl
  | cons c rest => rfl

theorem endsBlock_iff {base : Nat} :
    endsBlock base raw = true ↔ isSignificant raw = true ∧ indent raw ≤ base ∧
      beginsClosing raw = false := by
  simp [endsBlock, isSkippable_trim, closesBracket_trim, and_assoc]

end Line

/-! ## The extent -/

/-- The block with its header at index `start`, indented by `base`, reaches up to the line with
index `r - 1`: the code in between belongs to it, the next code behind it does not, and it ends with
code unless it is the header alone. -/
structure IsExtent (lines : List (List Char)) (start base r : Nat) : Prop where
  start_lt : start < r
  le_length : r ≤ lines.length
  within : ∀ i raw, start < i → i < r → lines[i]? = some raw → isSignificant raw = true →
    base < indent raw ∨ beginsClosing raw = true
  last : r = start + 1 ∨ ∃ raw, lines[r - 1]? = some raw ∧ isSignificant raw = true
  behind : ∀ raw ∈ (lines.drop r).find? isSignificant, indent raw ≤ base ∧ beginsClosing raw = false

section Extent
variable {lines : List (List Char)} {start base r r' : Nat}

/-- The first line of code from index `r` on is no later than any other. -/
theorem exists_first {k : Nat} {raw : List Char} (hle : r ≤ k) (hraw : lines[k]? = some raw)
    (hcode : isSignificant raw = true) :
    ∃ i first, r ≤ i ∧ i ≤ k ∧ lines[i]? = some first ∧
      (lines.drop r).find? isSignificant = some first := by
  have hdrop : (lines.drop r)[k - r]? = some raw := by
    rw [List.getElem?_drop, Nat.add_sub_cancel' hle, hraw]
  obtain ⟨first, hfirst⟩ := Option.isSome_iff_exists.mp
    (List.find?_isSome.mpr ⟨raw, List.mem_of_getElem? hdrop, hcode⟩)
  obtain ⟨-, i, hi, hget, hbefore⟩ := List.find?_eq_some_iff_getElem.mp hfirst
  have hik : i ≤ k - r := by
    refine Nat.not_lt.mp fun hlt => ?_
    have hskipped := hbefore (k - r) hlt
    rw [(List.getElem?_eq_some_iff.mp hdrop).2, hcode] at hskipped
    cases hskipped
  refine ⟨r + i, first, Nat.le_add_right r i, by omega, ?_, hfirst⟩
  rw [← List.getElem?_drop, List.getElem?_eq_getElem hi, hget]

/-- The code at the end of the longer one would be behind the shorter one. -/
theorem IsExtent.not_lt (h : IsExtent lines start base r) (h' : IsExtent lines start base r') :
    ¬ r < r' := by
  intro hlt
  have hstart := h.start_lt
  obtain hheader | ⟨raw, hraw, hcode⟩ := h'.last
  · omega
  · -- the first code behind the shorter extent is inside of the longer one, where it would have to
    -- be deeper
    obtain ⟨i, first, hle, hi, hget, hfirst⟩ := exists_first (Nat.le_sub_one_of_lt hlt) hraw hcode
    obtain ⟨hindent, hopen⟩ := h.behind first hfirst
    rcases h'.within i first (by omega) (by omega) hget (List.find?_some hfirst) with
      hdeeper | hclosing
    · omega
    · rw [hopen] at hclosing
      cases hclosing

theorem IsExtent.eq (h : IsExtent lines start base r) (h' : IsExtent lines start base r') :
    r = r' := by
  have := h.not_lt h'
  have := h'.not_lt h
  omega

end Extent

/-! ## The scan -/

/-- What the scan knows when it has read the lines up to index `next`, and `last` is the number of
the last line of code among them: no line has ended the block, and there is no code behind that
last line. -/
structure Scanned (lines : List (List Char)) (start base last next : Nat) : Prop where
  start_lt : start < last
  last_le : last ≤ next
  next_le : next ≤ lines.length
  within : ∀ i raw, start < i → i < next → lines[i]? = some raw → endsBlock base raw = false
  last_eq : last = start + 1 ∨ ∃ raw, lines[last - 1]? = some raw ∧ isSignificant raw = true
  behind : (lines.drop last).find? isSignificant = (lines.drop next).find? isSignificant

namespace Scanned
variable {lines : List (List Char)} {start base last next : Nat}

theorem header (base : Nat) (h : start < lines.length) :
    Scanned lines start base (start + 1) (start + 1) where
  start_lt := Nat.lt_succ_self start
  last_le := Nat.le_refl _
  next_le := h
  within := by omega
  last_eq := Or.inl rfl
  behind := rfl

/-- A line that does not end the block. -/
theorem step (h : Scanned lines start base last next) {raw : List Char}
    (hraw : lines[next]? = some raw) (hends : endsBlock base raw = false) :
    Scanned lines start base (if isSkippable (trim raw) then last else next + 1) (next + 1) := by
  have hnext := (List.getElem?_eq_some_iff.mp hraw).1
  have hdrop : lines.drop next = raw :: lines.drop (next + 1) := by
    rw [List.drop_eq_getElem_cons hnext, (List.getElem?_eq_some_iff.mp hraw).2]
  have hwithin : ∀ i other, start < i → i < next + 1 → lines[i]? = some other →
      endsBlock base other = false := by
    intro i other hstart hi hother
    rcases Nat.lt_succ_iff_lt_or_eq.mp hi with hlt | rfl
    · exact h.within i other hstart hlt hother
    · rwa [← Option.some.inj (hraw.symm.trans hother)]
  rw [isSkippable_trim]
  cases hcode : isSignificant raw with
  | true =>
    rw [Bool.not_true, if_neg Bool.false_ne_true]
    have hstart := h.start_lt.trans_le h.last_le
    exact ⟨Nat.lt_succ_of_lt hstart, Nat.le_refl _, hnext, hwithin, Or.inr ⟨raw, hraw, hcode⟩, rfl⟩
  | false =>
    rw [Bool.not_false, if_pos rfl]
    refine ⟨h.start_lt, Nat.le_succ_of_le h.last_le, hnext, hwithin, h.last_eq, ?_⟩
    rw [h.behind, hdrop, List.find?_cons_of_neg (by simp [hcode])]

/-- The scan is at its end if the next code, if any, ends the block. -/
theorem isExtent (h : Scanned lines start base last next)
    (hends : ∀ raw ∈ (lines.drop next).find? isSignificant, endsBlock base raw = true) :
    IsExtent lines start base last where
  start_lt := h.start_lt
  le_length := h.last_le.trans h.next_le
  within := by
    intro i raw hstart hi hraw hcode
    have hgoes := h.within i raw hstart (Nat.lt_of_lt_of_le hi h.last_le) hraw
    by_contra hnone
    rw [not_or, Nat.not_lt, Bool.not_eq_true] at hnone
    exact Bool.eq_false_iff.mp hgoes (endsBlock_iff.mpr ⟨hcode, hnone⟩)
  last := h.last_eq
  behind := by
    intro raw hraw
    rw [h.behind] at hraw
    exact (endsBlock_iff.mp (hends raw hraw)).2

/-- What is known in front of a line is known at the end of the scan, by induction on the lines that
are left. -/
theorem isExtent_blockEndFrom (h : Scanned lines start base last next) :
    IsExtent lines start base (blockEndFrom base last (next + 1) (lines.drop next)) := by
  induction hrest : lines.drop next generalizing last next with
  | nil => exact h.isExtent (by simp [hrest])
  | cons raw rest ih =>
    have hraw : lines[next]? = some raw := by rw [← List.head?_drop, hrest, List.head?_cons]
    cases hends : endsBlock base raw with
    | true =>
      rw [blockEndFrom, if_pos hends]
      refine h.isExtent fun first hfirst => ?_
      rw [hrest, List.find?_cons_of_pos (endsBlock_iff.mp hends).1] at hfirst
      rwa [← Option.some.inj hfirst]
    | false =>
      rw [blockEndFrom, hends]
      exact ih (h.step hraw hends) (by rw [← List.tail_drop, hrest, List.tail_cons])

end Scanned

theorem blockEnd?_eq_some {lines : List (List Char)} {start : Nat} (h : start < lines.length) :
    blockEnd? lines start =
      some (blockEndFrom (indent lines[start]) (start + 1) (start + 2)
        (lines.drop (start + 1))) := by
  rw [blockEnd?, List.drop_eq_getElem_cons h]

/-- The scan for the end of a block finds its extent, and there is one extent only. -/
theorem blockEnd?_isExtent (lines : List (List Char)) (start : Nat) (h : start < lines.length) :
    ∃ r, blockEnd? lines start = some r ∧
      ∀ n, IsExtent lines start (indent lines[start]) n ↔ n = r := by
  have hextent := (Scanned.header (indent lines[start]) h).isExtent_blockEndFrom
  refine ⟨_, blockEnd?_eq_some h, fun n => ⟨fun hn => hn.eq hextent, ?_⟩⟩
  rintro rfl
  exact hextent

/-- A bracket that closes at the margin is in the block of the header, and so is the code behind it
that is indented. A comment and a blank line in front of the next code are not. -/
theorem blockEnd?_isExtent_bracket :
    let lines := ["class A(", "  B,", "):", "", "  x = 1", "# note", " ", "C = 2"].map String.toList
    0 < lines.length ∧ blockEnd? lines 0 = some 5 ∧ IsExtent lines 0 0 5 ∧
      ∀ n, IsExtent lines 0 0 n → n = 5 := by
  intro lines
  have hstart : 0 < lines.length := by decide
  obtain ⟨r, hr, hextent⟩ := blockEnd?_isExtent lines 0 hstart
  have hfive : blockEnd? lines 0 = some 5 := by decide +kernel
  obtain rfl : r = 5 := Option.some.inj (hr.symm.trans hfive)
  exact ⟨hstart, hfive, (hextent 5).mpr rfl, fun n => (hextent n).mp⟩

/-- The range of a symbol is the extent of the block that its line heads. -/
theorem isExtent_of_mem_symbolsOfLines {lines : List (List Char)} {s : Symbol}
    (hs : s ∈ symbolsOfLines lines) : ∃ (k r : Nat) (header : List Char), lines[k]? = some header ∧
    s.line = k + 1 ∧ s.endLine = r ∧
      IsExtent lines k (indent header) r := by
  obtain ⟨k, header, hheader, hdeclared⟩ := exists_isDeclaredBy hs
  have hk := (List.getElem?_eq_some_iff.mp hheader).1
  refine ⟨k, _, header, hheader, ?_, hdeclared.endLine_eq, ?_⟩
  · rw [hdeclared.line_eq]
    omega
  · rw [Nat.add_comm 1 k]
    exact (Scanned.header (indent header) hk).isExtent_blockEndFrom

end CodeAtlas.Outline.Indented
