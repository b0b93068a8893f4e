import CodeAtlas.Text.Find
import Mathlib.Data.List.TakeDrop
import Mathlib.Data.List.TakeWhile

/-! # What recognisers find

Each recogniser is described by the ways to cut the text that it accepts. A name stands in a line as
a whole word if the line can be cut around it with the edge of a word on either side; the search
from place to place finds exactly these cuts.
-/
namespace CodeAtlas.Text

@[simp] theorem after?_eq_some_iff {head text rest : List Char} :
    after? head text = some rest ↔ text = head ++ rest := by
  induction head generalizing text with
  | nil => simp [after?]
  | cons h head ih =>
    cases text with
    | nil => simp [after?]
    | cons c text =>
      by_cases hc : h = c
      · subst hc
        simp [after?, ih]
      · have hne : c ≠ h := fun he => hc he.symm
        simp [after?, hc, hne]

theorem startsWith_iff_head? {head : String} {c : Char} (hhead : head.toList = [c])
    {text : List Char} : startsWith head text = true ↔ text.head? = some c := by
  rw [startsWith, literal, hhead, Option.isSome_iff_exists, List.head?_eq_some_iff]
  exact exists_congr fun rest => after?_eq_some_iff

theorem mem_places_iff {text rest : List Char} :
    rest ∈ places text ↔ ∃ before, text = before ++ rest := by
  induction text with
  | nil => simp [places, and_comm]
  | cons c text ih =>
    simp only [places, List.mem_cons, ih]
    constructor
    · rintro (rfl | ⟨before, rfl⟩)
      · exact ⟨[], rfl⟩
      · exact ⟨c :: before, rfl⟩
    · rintro ⟨before, h⟩
      cases before with
      | nil => exact Or.inl h.symm
      | cons b before =>
        simp only [List.cons_append, List.cons.injEq] at h
        exact Or.inr ⟨before, h.2⟩

section Search
variable {α : Type} {recognise : List Char → Option α}

theorem search_cons (c : Char) (text : List Char) :
    search recognise (c :: text) = (recognise (c :: text)).or (search recognise text) := by
  rw [search, places, List.findSome?_cons]
  cases recognise (c :: text) <;> rfl

theorem search_eq_none_iff {text : List Char} :
    search recognise text = none ↔ ∀ before rest, text = before ++ rest →
      recognise rest = none := by
  simp only [search, List.findSome?_eq_none_iff, mem_places_iff]
  exact ⟨fun h before rest hrest => h rest ⟨before, hrest⟩, fun h rest ⟨before, hrest⟩ =>
    h before rest hrest⟩

/-- Places where nothing is recognised are passed over. -/
theorem search_append {front : List Char} (rest : List Char)
    (h : ∀ before behind, front = before ++ behind → behind ≠ [] →
      recognise (behind ++ rest) = none) :
    search recognise (front ++ rest) = search recognise rest := by
  induction front with
  | nil => rfl
  | cons c front ih =>
    have hhere := h [] (c :: front) rfl (List.cons_ne_nil c front)
    have hlater := ih fun before behind hcut hne => h (c :: before) behind (by rw [hcut]; rfl) hne
    rw [List.cons_append, search_cons, ← List.cons_append, hhere, hlater, Option.none_or]

end Search

/-- One or more blanks and nothing else. -/
def IsGap (gap : List Char) : Prop := gap ≠ [] ∧ ∀ c ∈ gap, isBlank c = true

instance (gap : List Char) : Decidable (IsGap gap) :=
  decidable_of_iff (gap ≠ [] ∧ gap.all isBlank = true) (by rw [List.all_eq_true, IsGap])

theorem IsGap.cons {c : Char} {gap : List Char} (hc : isBlank c = true) (h : IsGap gap) :
    IsGap (c :: gap) :=
  ⟨List.cons_ne_nil c gap, List.forall_mem_cons.mpr ⟨hc, h.2⟩⟩

theorem isGap_singleton {c : Char} (hc : isBlank c = true) : IsGap [c] :=
  ⟨List.cons_ne_nil c [], by simpa using hc⟩

theorem exists_isGap_of_blanks {text rest : List Char} (h : blanks text = some rest) :
    ∃ gap, IsGap gap ∧ text = gap ++ rest := by
  cases text with
  | nil => simp [blanks] at h
  | cons c text =>
    simp only [blanks, Option.ite_none_right_eq_some, Option.some.injEq] at h
    obtain ⟨hc, rfl⟩ := h
    refine ⟨c :: text.takeWhile isBlank, ⟨List.cons_ne_nil _ _, ?_⟩, ?_⟩
    · intro d hd
      rcases List.mem_cons.mp hd with rfl | hd
      · exact hc
      · exact List.mem_takeWhile_imp hd
    · rw [trimStart, List.cons_append, List.takeWhile_append_dropWhile]

/-- All blanks are taken where something else stands behind them. -/
theorem blanks_append {gap rest : List Char} {c : Char} (h : IsGap gap) (hc : isBlank c = false) :
    blanks (gap ++ c :: rest) = some (c :: rest) := by
  obtain ⟨hne, hall⟩ := h
  cases gap with
  | nil => exact absurd rfl hne
  | cons d gap =>
    obtain ⟨hd, hgap⟩ := List.forall_mem_cons.mp hall
    simp [blanks, hd, trimStart, List.dropWhile_append_of_pos hgap, hc]

@[simp] theorem cutAt?_eq_some_iff {sep : Char} {text before behind : List Char} :
    cutAt? sep text = some (before, behind) ↔ sep ∉ before ∧ text = before ++ sep :: behind := by
  unfold cutAt?
  rw [List.span_eq_takeWhile_dropWhile]
  constructor
  · intro h
    have hcut := List.takeWhile_append_dropWhile (p := (· != sep)) (l := text)
    cases hd : text.dropWhile (· != sep) with
    | nil => simp [hd] at h
    | cons c rest =>
      simp only [hd, Option.some.injEq, Prod.mk.injEq] at h
      obtain ⟨rfl, rfl⟩ := h
      have hc : c = sep := by
        have := List.head?_dropWhile_not (p := (· != sep)) (l := text)
        simpa [hd] using this
      subst hc
      refine ⟨fun hmem => ?_, ?_⟩
      · simpa using List.mem_takeWhile_imp hmem
      · rw [← hd, hcut]
  · rintro ⟨hmem, rfl⟩
    have hall : ∀ c ∈ before, (c != sep) = true := fun c hc => by
      simpa using fun he : c = sep => hmem (he ▸ hc)
    rw [List.takeWhile_append_of_pos hall, List.dropWhile_append_of_pos hall]
    simp

/-- The name stands in the line with the edge of a word on either side of it. -/
def Occurs (name line : List Char) : Prop :=
  ∃ before after, line = before ++ name ++ after ∧
    isWordEdge before.getLast? (name ++ after).head? = true ∧
    isWordEdge (before ++ name).getLast? after.head? = true

theorem isWholeAt_iff {name text : List Char} {last : Option Char} :
    isWholeAt name last text = true ↔ ∃ after, text = name ++ after ∧
      isWordEdge last (name ++ after).head? = true ∧
      isWordEdge (name.getLast?.or last) after.head? = true := by
  unfold isWholeAt
  cases h : after? name text with
  | none =>
    simp only [Bool.false_eq_true, false_iff]
    rintro ⟨after, rfl, -⟩
    rw [after?_eq_some_iff.mpr rfl] at h
    cases h
  | some rest =>
    rw [after?_eq_some_iff] at h
    subst h
    simp

/-- The characters in front of a place count from the place of the search on, `last` being the one
in front of that. -/
theorem mentionsFrom_iff {name text : List Char} {last : Option Char} :
    mentionsFrom name last text = true ↔ ∃ before after, text = before ++ name ++ after ∧
      isWordEdge (before.getLast?.or last) (name ++ after).head? = true ∧
      isWordEdge ((before ++ name).getLast?.or last) after.head? = true := by
  induction text generalizing last with
  | nil =>
    rw [mentionsFrom, isWholeAt_iff]
    constructor
    · rintro ⟨after, h, hl, hr⟩
      exact ⟨[], after, h, hl, hr⟩
    · rintro ⟨before, after, h, hl, hr⟩
      obtain ⟨rfl, rfl, rfl⟩ : before = [] ∧ name = [] ∧ after = [] := by simpa using h.symm
      exact ⟨[], rfl, hl, hr⟩
  | cons c text ih =>
    rw [mentionsFrom, Bool.or_eq_true, isWholeAt_iff, ih]
    -- either the name stands right here, or `c` belongs to what is in front of it
    constructor
    · rintro (⟨after, h, hl, hr⟩ | ⟨before, after, rfl, hl, hr⟩)
      · exact ⟨[], after, h, hl, hr⟩
      · refine ⟨c :: before, after, rfl, ?_, ?_⟩
        · simpa [List.getLast?_cons] using hl
        · simpa [List.getLast?_cons] using hr
    · rintro ⟨before, after, h, hl, hr⟩
      cases before with
      | nil => exact Or.inl ⟨after, h, hl, hr⟩
      | cons b before =>
        simp only [List.cons_append, List.cons.injEq] at h
        obtain ⟨rfl, rfl⟩ := h
        refine Or.inr ⟨before, after, rfl, ?_, ?_⟩
        · simpa [List.getLast?_cons] using hl
        · simpa [List.getLast?_cons] using hr

theorem mentions_iff {name line : List Char} : mentions name line = true ↔ Occurs name line := by
  rw [mentions, mentionsFrom_iff]
  simp only [Option.or_none, Occurs]

instance (name line : List Char) : Decidable (Occurs name line) :=
  decidable_of_iff (mentions name line = true) mentions_iff

end CodeAtlas.Text
