import CodeAtlas.Impact.Analysis

/-! # The innermost symbol around a line

The loop over the symbols of a file keeps the best symbol so far. What it ends with is a symbol
around the line such that no other one lies further inside, and the first one of those with the same
range. So the order of the symbols counts only among those.
-/
namespace CodeAtlas.Impact

theorem isInner_iff {s other : Symbol} : isInner s other = true ↔
    extent s < extent other ∨ (extent s = extent other ∧ other.line < s.line) := by
  simp [isInner]

theorem isInner_trans {s t u : Symbol} (hst : isInner s t = true) (htu : isInner t u = true) :
    isInner s u = true := by
  rw [isInner_iff] at *
  omega

/-- Of three symbols, one that lies inside of another does not tie with both on the third. -/
theorem isInner_or_isInner {s u : Symbol} (h : isInner s u = true) (t : Symbol) :
    isInner s t = true ∨ isInner t u = true := by
  rw [isInner_iff] at *
  rw [isInner_iff]
  omega

/-- The better one of a symbol and the best one so far. -/
def inner (best : Option Symbol) (s : Symbol) : Symbol :=
  match best with
  | none => s
  | some b => if isInner s b then s else b

theorem inner_eq_or (best : Option Symbol) (s : Symbol) :
    best = some (inner best s) ∨ inner best s = s := by
  cases best with
  | none => exact Or.inr rfl
  | some b =>
    rw [inner]
    split
    · exact Or.inr rfl
    · exact Or.inl rfl

section Loop
variable {line : Int} {best : Option Symbol} {s t : Symbol} {rest symbols : List Symbol}

theorem enclosingFrom_cons_of_not_contains (h : s.contains line = false) :
    enclosingFrom line best (s :: rest) = enclosingFrom line best rest := by
  simp [enclosingFrom, h]

theorem enclosingFrom_cons (h : s.contains line = true) :
    enclosingFrom line best (s :: rest) = enclosingFrom line (some (inner best s)) rest := by
  cases best <;> simp [enclosingFrom, h, inner]

theorem enclosingFrom_eq_none_iff :
    enclosingFrom line best symbols = none ↔ best = none ∧
      ∀ t ∈ symbols, t.contains line = false := by
  induction symbols generalizing best with
  | nil => simp [enclosingFrom]
  | cons t rest ih =>
    cases ht : t.contains line with
    | false => simp [enclosingFrom_cons_of_not_contains ht, ih, ht]
    | true => simp [enclosingFrom_cons ht, ih, ht]

/-- What is not further inside than the better one of two symbols is not further inside
than either. -/
theorem not_isInner_inner (h : isInner (inner best t) s = false) :
    isInner t s = false ∧ ∀ b, best = some b → isInner b s = false := by
  cases best with
  | none => exact ⟨h, by simp⟩
  | some b =>
    simp only [Option.some.injEq, forall_eq']
    rw [inner] at h
    split at h
    next htb =>
      refine ⟨h, eq_false_of_ne_true fun hbs => ?_⟩
      exact absurd (isInner_trans htb hbs) (by simp [h])
    next htb =>
      refine ⟨eq_false_of_ne_true fun hts => ?_, h⟩
      rcases isInner_or_isInner hts b with htb' | hbs
      · exact htb htb'
      · exact absurd hbs (by simp [h])

theorem enclosingFrom_eq_some (h : enclosingFrom line best symbols = some s) :
    (best = some s ∨ s ∈ symbols ∧ s.contains line = true) ∧
      (∀ b, best = some b → isInner b s = false) ∧
      ∀ t ∈ symbols, t.contains line = true → isInner t s = false := by
  induction symbols generalizing best with
  | nil =>
    have hbest : best = some s := h
    refine ⟨Or.inl hbest, fun b hb => ?_, by simp⟩
    obtain rfl : s = b := Option.some.inj (hbest.symm.trans hb)
    simp [isInner]
  | cons t rest ih =>
    cases ht : t.contains line with
    | false =>
      rw [enclosingFrom_cons_of_not_contains ht] at h
      obtain ⟨hs, hbest, hrest⟩ := ih h
      refine ⟨hs.imp_right fun hs => ⟨List.mem_cons_of_mem t hs.1, hs.2⟩, hbest, ?_⟩
      simpa [ht] using hrest
    | true =>
      rw [enclosingFrom_cons ht] at h
      obtain ⟨hs, hinner, hrest⟩ := ih h
      obtain ⟨hts, hbest⟩ := not_isInner_inner (hinner _ rfl)
      refine ⟨?_, hbest, List.forall_mem_cons.mpr ⟨fun _ => hts, hrest⟩⟩
      rcases hs with hs | ⟨hmem, hcontains⟩
      · -- the best one at the end is the better one of `t` and the best one before it
        rcases inner_eq_or best t with hkept | hnew
        · exact Or.inl (hkept.trans hs)
        · obtain rfl : t = s := hnew.symm.trans (Option.some.inj hs)
          exact Or.inr ⟨List.mem_cons_self, ht⟩
      · exact Or.inr ⟨List.mem_cons_of_mem t hmem, hcontains⟩

end Loop

section Enclosing
variable {line : Int} {s : Symbol} {symbols : List Symbol}

theorem enclosing?_eq_none_iff :
    enclosing? symbols line = none ↔ ∀ t ∈ symbols, t.contains line = false := by
  rw [enclosing?, enclosingFrom_eq_none_iff, and_iff_right rfl]

theorem mem_of_enclosing? (h : enclosing? symbols line = some s) :
    s ∈ symbols ∧ s.contains line = true :=
  (enclosingFrom_eq_some h).1.resolve_left (by simp)

theorem not_isInner_of_enclosing? (h : enclosing? symbols line = some s) {t : Symbol}
    (ht : t ∈ symbols) (hcontains : t.contains line = true) : isInner t s = false :=
  (enclosingFrom_eq_some h).2.2 t ht hcontains

end Enclosing

/-! ## Ranges -/

/-- The first and the last line of a symbol. -/
def range (s : Symbol) : Int × Int := (s.line, s.lastLine)

/-- The symbol is around the line, no other one around it has fewer lines or as many and begins
later, and it is the first one with its range. -/
structure IsInnermost (symbols : List Symbol) (line : Int) (s : Symbol) : Prop where
  around : s.line ≤ line ∧ line ≤ s.lastLine
  least : ∀ t ∈ symbols, t.line ≤ line → line ≤ t.lastLine →
    s.lastLine - s.line < t.lastLine - t.line ∨
      s.lastLine - s.line = t.lastLine - t.line ∧ t.line ≤ s.line
  first : ∃ before behind, symbols = before ++ s :: behind ∧ ∀ t ∈ before, range t ≠ range s

section Innermost
variable {line : Int} {best : Option Symbol} {s t : Symbol} {symbols others : List Symbol}

theorem contains_iff : s.contains line = true ↔ s.line ≤ line ∧ line ≤ s.lastLine := by
  simp [Symbol.contains]

theorem isInner_eq_false_iff : isInner t s = false ↔
    s.lastLine - s.line < t.lastLine - t.line ∨ s.lastLine - s.line = t.lastLine - t.line ∧
      t.line ≤ s.line := by
  rw [← Bool.not_eq_true, isInner_iff, extent, extent]
  omega

/-- What lies further inside than the better one of two symbols lies further inside than both. -/
theorem isInner_of_isInner_inner (h : isInner s (inner best t) = true) :
    isInner s t = true ∧ ∀ b, best = some b → isInner s b = true := by
  cases best with
  | none => exact ⟨h, by simp⟩
  | some b =>
    simp only [Option.some.injEq, forall_eq']
    rw [inner] at h
    split at h
    next htb => exact ⟨h, isInner_trans h htb⟩
    next htb => exact ⟨(isInner_or_isInner h t).resolve_right htb, h⟩

/-- A symbol takes the place of the best one so far only if it lies further inside. Hence the last
one to do so lies further inside than all that came before it. -/
theorem enclosingFrom_eq_some_split (h : enclosingFrom line best symbols = some s) :
    best = some s ∨ ∃ before behind, symbols = before ++ s :: behind ∧
      (∀ b, best = some b → isInner s b = true) ∧ ∀ t ∈ before, t.contains line = true →
      isInner s t = true := by
  induction symbols generalizing best with
  | nil => exact Or.inl h
  | cons t rest ih =>
    cases ht : t.contains line with
    | false =>
      rw [enclosingFrom_cons_of_not_contains ht] at h
      refine (ih h).imp_right ?_
      rintro ⟨before, behind, rfl, hbest, hbefore⟩
      exact ⟨t :: before, behind, rfl, hbest, List.forall_mem_cons.mpr ⟨by simp [ht], hbefore⟩⟩
    | true =>
      rw [enclosingFrom_cons ht] at h
      rcases ih h with hs | ⟨before, behind, rfl, hinner, hbefore⟩
      · -- nothing behind `t` takes the place, so that `t` has it or leaves it to the best one
        -- before
        cases best with
        | none =>
          obtain rfl : t = s := Option.some.inj hs
          exact Or.inr ⟨[], rest, rfl, by simp, by simp⟩
        | some b =>
          rw [inner] at hs
          split at hs
          next htb =>
            obtain rfl := Option.some.inj hs
            exact Or.inr ⟨[], rest, rfl, by simpa using htb, by simp⟩
          next => exact Or.inl hs
      · obtain ⟨hst, hbest⟩ := isInner_of_isInner_inner (hinner _ rfl)
        exact Or.inr ⟨t :: before, behind, rfl, hbest,
          List.forall_mem_cons.mpr ⟨fun _ => hst, hbefore⟩⟩

theorem isInnermost_of_enclosing? (h : enclosing? symbols line = some s) :
    IsInnermost symbols line s where
  around := contains_iff.mp (mem_of_enclosing? h).2
  least t ht hfirst hlast := isInner_eq_false_iff.mp
    (not_isInner_of_enclosing? h ht (contains_iff.mpr ⟨hfirst, hlast⟩))
  first := by
    rcases enclosingFrom_eq_some_split h with hnone | ⟨before, behind, hsymbols, -, hbefore⟩
    · cases hnone
    · refine ⟨before, behind, hsymbols, fun t ht hrange => ?_⟩
      obtain ⟨hline, hlast⟩ := Prod.mk.inj hrange
      have hcontains : t.contains line = true := by
        rw [contains_iff, hline, hlast]
        exact contains_iff.mp (mem_of_enclosing? h).2
      have hinner := isInner_iff.mp (hbefore t ht hcontains)
      rw [extent, extent] at hinner
      omega

/-- Two symbols around the line neither of which lies further inside than the other have the
same range. -/
theorem range_eq_of_least (hs : s.lastLine - s.line < t.lastLine - t.line ∨
      s.lastLine - s.line = t.lastLine - t.line ∧ t.line ≤ s.line)
    (ht : t.lastLine - t.line < s.lastLine - s.line ∨ t.lastLine - t.line = s.lastLine - s.line ∧
      s.line ≤ t.line) :
    range s = range t := by
  rw [range, range, Prod.mk.injEq]
  omega

namespace IsInnermost

theorem mem (h : IsInnermost symbols line s) : s ∈ symbols := by
  obtain ⟨before, behind, rfl, -⟩ := h.first
  simp

theorem range_eq (hs : IsInnermost symbols line s) (ht : IsInnermost others line t)
    (hperm : symbols.Perm others) : range s = range t :=
  range_eq_of_least (hs.least t (hperm.mem_iff.mpr ht.mem) ht.around.1 ht.around.2)
    (ht.least s (hperm.mem_iff.mp hs.mem) hs.around.1 hs.around.2)

theorem unique (hs : IsInnermost symbols line s) (ht : IsInnermost symbols line t) : s = t := by
  have hrange := hs.range_eq ht (List.Perm.refl symbols)
  obtain ⟨before, behind, hsplit, hbefore⟩ := hs.first
  obtain ⟨before', behind', hsplit', hbefore'⟩ := ht.first
  -- neither of the two stands in front of the other
  rcases List.append_eq_append_iff.mp (hsplit.symm.trans hsplit') with
    ⟨between, hfront, hback⟩ | ⟨between, hfront, hback⟩
  · cases between with
    | nil => exact (List.cons.inj hback).1
    | cons u between =>
      obtain rfl : s = u := (List.cons.inj hback).1
      exact absurd hrange (hbefore' s (by simp [hfront]))
  · cases between with
    | nil => exact (List.cons.inj hback).1.symm
    | cons u between =>
      obtain rfl : t = u := (List.cons.inj hback).1
      exact absurd hrange.symm (hbefore t (by simp [hfront]))

end IsInnermost

/-- There is an innermost symbol exactly if some symbol is around the line, and it is the one that
is answered. Its range does not depend on the order of the symbols. -/
theorem enclosing?_isInnermost (symbols : List Symbol) (line : Int) :
    (enclosing? symbols line = none ↔ ∀ s ∈ symbols, ¬ (s.line ≤ line ∧ line ≤ s.lastLine)) ∧
      (∀ s, enclosing? symbols line = some s ↔ IsInnermost symbols line s) ∧
      ∀ others, symbols.Perm others → (enclosing? others line).map range =
        (enclosing? symbols line).map range := by
  have hnone (symbols : List Symbol) :
      enclosing? symbols line = none ↔ ∀ s ∈ symbols, ¬ (s.line ≤ line ∧ line ≤ s.lastLine) := by
    simp only [enclosing?_eq_none_iff, ← contains_iff, Bool.not_eq_true]
  have hsome (s : Symbol) : enclosing? symbols line = some s ↔ IsInnermost symbols line s := by
    refine ⟨isInnermost_of_enclosing?, fun h => ?_⟩
    cases hfound : enclosing? symbols line with
    | none => exact absurd h.around ((hnone symbols).mp hfound s h.mem)
    | some t => rw [(isInnermost_of_enclosing? hfound).unique h]
  refine ⟨hnone symbols, hsome, fun others hperm => ?_⟩
  cases hfound : enclosing? symbols line with
  | none =>
    have hothers : enclosing? others line = none := by
      rw [hnone]
      exact fun s hs => (hnone symbols).mp hfound s (hperm.mem_iff.mpr hs)
    rw [hothers]
  | some s =>
    have hs := isInnermost_of_enclosing? hfound
    cases hfound' : enclosing? others line with
    | none => exact absurd hs.around ((hnone others).mp hfound' s (hperm.mem_iff.mp hs.mem))
    | some t => exact congrArg some (hs.range_eq (isInnermost_of_enclosing? hfound') hperm).symm

end Innermost

/-- Symbols around one another: `b` and `c` overlap with as many lines, `c` and `d` have the same
ones, `e` ends before it begins, and the end of `f` is unknown. -/
def overlappingSymbols : List Symbol :=
  [{ name := "a", kind := .classType, line := 1, endLine := 9 },
    { name := "b", kind := .function, line := 2, endLine := 6 },
    { name := "c", kind := .function, line := 4, endLine := 8 },
    { name := "d", kind := .function, line := 4, endLine := 8 },
    { name := "e", kind := .function, line := 7, endLine := 3 },
    { name := "f", kind := .variable, line := 6 }]

/-- Listed in reverse, another symbol of the same range comes first. -/
theorem enclosing?_isInnermost_overlapping :
    (enclosing? overlappingSymbols 5).map (·.name) = some "c" ∧
      (enclosing? overlappingSymbols.reverse 5).map (·.name) = some "d" ∧
      (enclosing? overlappingSymbols.reverse 5).map range = some (4, 8) ∧
      (enclosing? overlappingSymbols.reverse 6).map (·.name) = some "f" ∧
        enclosing? overlappingSymbols 10 = none := by
  obtain ⟨hnone, -, -⟩ := enclosing?_isInnermost overlappingSymbols 10
  obtain ⟨-, -, hperm⟩ := enclosing?_isInnermost overlappingSymbols 5
  refine ⟨by decide, by decide, ?_, by decide, hnone.mpr (by decide)⟩
  rw [hperm _ (List.reverse_perm overlappingSymbols).symm]
  decide

end CodeAtlas.Impact
