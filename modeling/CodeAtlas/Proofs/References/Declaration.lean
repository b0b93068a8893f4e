import CodeAtlas.Proofs.Text.Find
import CodeAtlas.References.Search

/-! # Shapes of declarations

A line declares a name if a declaring word stands somewhere in front of the name with nothing but
blanks between the two, or the word `func` with a receiver in parentheses between them. The name
has to end at the edge of a word; in front of it stands a blank. The recogniser accepts exactly
these lines.
-/
namespace CodeAtlas.References
open Text

/-- What stands in front of a name that is declared. -/
inductive Introduces : List Char → Prop
  | word {word : String} {gap : List Char} (hword : word ∈ declaringWords) (hgap : IsGap gap) :
    Introduces (word.toList ++ gap)
  | receiver {gap receiver between : List Char} (hgap : IsGap gap) (hsome : receiver ≠ [])
      (hclosed : ')' ∉ receiver) (hbetween : IsGap between) :
    Introduces ("func".toList ++ gap ++ '(' :: receiver ++ ')' :: between)

/-- The line holds a declaration of the name. -/
def Declared (name line : List Char) : Prop :=
  ∃ before head after, line = before ++ head ++ name ++ after ∧ Introduces head ∧
    isWordEdge name.getLast? after.head? = true

theorem mem_placesBehindBlanks_iff {text rest : List Char} :
    rest ∈ placesBehindBlanks text ↔ ∃ gap, IsGap gap ∧ text = gap ++ rest := by
  induction text with
  | nil =>
    simp only [placesBehindBlanks, List.not_mem_nil, false_iff]
    rintro ⟨gap, hgap, h⟩
    exact hgap.1 (List.append_eq_nil_iff.mp h.symm).1
  | cons c text ih =>
    by_cases hc : isBlank c = true
    · simp only [placesBehindBlanks, hc, if_true, List.mem_cons, ih]
      constructor
      · rintro (rfl | ⟨gap, hgap, rfl⟩)
        · exact ⟨[c], isGap_singleton hc, rfl⟩
        · exact ⟨c :: gap, hgap.cons hc, rfl⟩
      · rintro ⟨gap, ⟨hne, hall⟩, h⟩
        cases gap with
        | nil => exact absurd rfl hne
        | cons d gap =>
          simp only [List.cons_append, List.cons.injEq] at h
          cases gap with
          | nil => exact Or.inl h.2.symm
          | cons e gap =>
            exact Or.inr ⟨e :: gap, ⟨List.cons_ne_nil e gap, (List.forall_mem_cons.mp hall).2⟩, h.2⟩
    · simp only [placesBehindBlanks, hc, if_false, List.not_mem_nil, false_iff, Bool.false_eq_true]
      rintro ⟨gap, ⟨hne, hall⟩, h⟩
      cases gap with
      | nil => exact hne rfl
      | cons d gap =>
        simp only [List.cons_append, List.cons.injEq] at h
        exact hc (h.1 ▸ hall d List.mem_cons_self)

theorem endsWordAt_iff {name text : List Char} :
    endsWordAt name text = true ↔
      ∃ after, text = name ++ after ∧ isWordEdge name.getLast? after.head? = true := by
  unfold endsWordAt
  cases h : after? name text with
  | none =>
    simp only [Bool.false_eq_true, false_iff]
    rintro ⟨after, rfl, -⟩
    rw [after?_eq_some_iff.mpr rfl] at h
    cases h
  | some rest =>
    rw [after?_eq_some_iff] at h
    subst h
    simp

theorem namedBehindBlanks_iff {name text : List Char} :
    namedBehindBlanks name text = true ↔ ∃ gap after, IsGap gap ∧ text = gap ++ name ++ after ∧
      isWordEdge name.getLast? after.head? = true := by
  simp only [namedBehindBlanks, List.any_eq_true, mem_placesBehindBlanks_iff, endsWordAt_iff]
  constructor
  · rintro ⟨rest, ⟨gap, hgap, rfl⟩, after, rfl, hedge⟩
    exact ⟨gap, after, hgap, (List.append_assoc ..).symm, hedge⟩
  · rintro ⟨gap, after, hgap, rfl, hedge⟩
    exact ⟨name ++ after, ⟨gap, hgap, List.append_assoc ..⟩, after, rfl, hedge⟩

theorem behindReceiver?_eq_some_iff {text rest : List Char} :
    behindReceiver? text = some rest ↔ ∃ gap receiver, IsGap gap ∧ receiver ≠ [] ∧ ')' ∉ receiver ∧
      text = gap ++ '(' :: receiver ++ ')' :: rest := by
  simp only [behindReceiver?, Option.bind_eq_bind, Option.bind_eq_some_iff, literal,
    after?_eq_some_iff, Prod.exists, cutAt?_eq_some_iff]
  constructor
  · rintro ⟨behind, hblanks, inside, rfl, receiver, closed, ⟨hclosed, rfl⟩, h⟩
    obtain ⟨gap, hgap, rfl⟩ := exists_isGap_of_blanks hblanks
    obtain ⟨hsome, rfl⟩ : receiver ≠ [] ∧ closed = rest := by simpa using h
    exact ⟨gap, receiver, hgap, hsome, hclosed, by simp⟩
  · rintro ⟨gap, receiver, hgap, hsome, hclosed, rfl⟩
    have hopen : isBlank '(' = false := by decide
    refine ⟨_, ?_, _, rfl, receiver, rest, ⟨hclosed, rfl⟩, by simp [hsome]⟩
    rw [List.append_assoc]
    exact blanks_append hgap hopen

theorem declaresAt_iff {name text : List Char} :
    declaresAt name text = true ↔ ∃ head after, text = head ++ name ++ after ∧ Introduces head ∧
      isWordEdge name.getLast? after.head? = true := by
  rw [declaresAt, Bool.or_eq_true, List.any_eq_true]
  constructor
  · rintro (⟨word, hword, h⟩ | h)
    · cases hrest : literal word text with
      | none => simp [hrest] at h
      | some rest =>
        rw [hrest, namedBehindBlanks_iff] at h
        obtain ⟨gap, after, hgap, rfl, hedge⟩ := h
        rw [literal, after?_eq_some_iff] at hrest
        exact ⟨_, after, by rw [hrest]; simp only [List.append_assoc], .word hword hgap, hedge⟩
    · cases hrest : (literal "func" text).bind behindReceiver? with
      | none => simp [hrest] at h
      | some rest =>
        rw [hrest, namedBehindBlanks_iff] at h
        obtain ⟨between, after, hbetween, rfl, hedge⟩ := h
        obtain ⟨behind, hfunc, hreceiver⟩ := Option.bind_eq_some_iff.mp hrest
        obtain ⟨gap, receiver, hgap, hsome, hclosed, rfl⟩ :=
          behindReceiver?_eq_some_iff.mp hreceiver
        rw [literal, after?_eq_some_iff] at hfunc
        refine ⟨_, after, ?_, .receiver hgap hsome hclosed hbetween, hedge⟩
        rw [hfunc]
        simp only [List.append_assoc, List.cons_append]
  · rintro ⟨head, after, rfl, hhead, hedge⟩
    cases hhead with
    | @word word gap hword hgap =>
      refine Or.inl ⟨word, hword, ?_⟩
      have hrest :
          literal word (word.toList ++ gap ++ name ++ after) = some (gap ++ name ++ after) := by
        rw [literal, after?_eq_some_iff]
        simp only [List.append_assoc]
      rw [hrest]
      exact namedBehindBlanks_iff.mpr ⟨gap, after, hgap, rfl, hedge⟩
    | @receiver gap receiver between hgap hsome hclosed hbetween =>
      refine Or.inr ?_
      have hrest :
          (literal "func" ("func".toList ++ gap ++ '(' :: receiver ++ ')' :: between ++ name ++
          after)).bind behindReceiver? = some (between ++ name ++ after) := by
        refine Option.bind_eq_some_iff.mpr ⟨gap ++ '(' :: receiver ++ ')' :: between ++
          name ++ after, ?_, ?_⟩
        · rw [literal, after?_eq_some_iff]
          simp only [List.append_assoc]
        · refine behindReceiver?_eq_some_iff.mpr ⟨gap, receiver, hgap, hsome, hclosed, ?_⟩
          simp only [List.append_assoc, List.cons_append]
      rw [hrest]
      exact namedBehindBlanks_iff.mpr ⟨between, after, hbetween, rfl, hedge⟩

theorem declares_iff {name line : List Char} : declares name line = true ↔ Declared name line := by
  simp only [declares, List.any_eq_true, mem_places_iff, declaresAt_iff]
  constructor
  · rintro ⟨rest, ⟨before, rfl⟩, head, after, rfl, hhead, hedge⟩
    exact ⟨before, head, after, by simp only [List.append_assoc], hhead, hedge⟩
  · rintro ⟨before, head, after, rfl, hhead, hedge⟩
    exact ⟨head ++ name ++ after, ⟨before, by simp only [List.append_assoc]⟩, head, after,
      rfl, hhead, hedge⟩

instance (name line : List Char) : Decidable (Declared name line) :=
  decidable_of_iff (declares name line = true) declares_iff

end CodeAtlas.References
