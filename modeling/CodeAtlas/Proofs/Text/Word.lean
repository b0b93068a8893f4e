import CodeAtlas.Proofs.Text.CharClass
import CodeAtlas.Proofs.Text.Find

/-! # Whole words

When a name stands in a line as a whole word, said by what is next to it: a name that begins and
ends with word characters needs none in front of it and none behind it. White space around the line
changes nothing.
-/
namespace CodeAtlas.Text

/-- The name begins and ends with word characters. -/
def HasWordEnds (name : List Char) : Prop :=
  name.head?.any isWordChar = true ∧ name.getLast?.any isWordChar = true

instance (name : List Char) : Decidable (HasWordEnds name) := inferInstanceAs (Decidable (_ ∧ _))

theorem hasWordEnds_of_all {name : List Char} (hne : name ≠ [])
    (h : ∀ c ∈ name, isWordChar c = true) : HasWordEnds name := by
  refine ⟨?_, ?_⟩
  · rw [List.head?_eq_some_head hne]
    exact h _ (List.head_mem hne)
  · rw [List.getLast?_eq_some_getLast hne]
    exact h _ (List.getLast_mem hne)

theorem occurs_of_edges {before name after : List Char} (hname : HasWordEnds name)
    (hbefore : before.getLast?.any isWordChar = false)
    (hafter : after.head?.any isWordChar = false) : Occurs name (before ++ name ++ after) := by
  obtain ⟨hhead, hlast⟩ := hname
  cases hfirst : name.head? with
  | none => simp [hfirst] at hhead
  | some c =>
    cases hend : name.getLast? with
    | none => simp [hend] at hlast
    | some d =>
      rw [hfirst] at hhead
      rw [hend] at hlast
      refine ⟨before, after, rfl, ?_, ?_⟩
      · rw [List.head?_append, hfirst, Option.some_or, isWordEdge, hbefore, hhead]
        rfl
      · rw [List.getLast?_append, hend, Option.some_or, isWordEdge, hlast, hafter]
        rfl

/-- The name stands apart from other word characters wherever it is a whole word. -/
theorem Occurs.exists_edges {name line : List Char} (h : Occurs name line)
    (hname : HasWordEnds name) : ∃ before after, line = before ++ name ++ after ∧
    before.getLast?.any isWordChar = false ∧
      after.head?.any isWordChar = false := by
  obtain ⟨before, after, rfl, hl, hr⟩ := h
  obtain ⟨hhead, hlast⟩ := hname
  refine ⟨before, after, rfl, ?_, ?_⟩
  · cases hfirst : name.head? with
    | none => simp [hfirst] at hhead
    | some c =>
      rw [hfirst] at hhead
      rw [List.head?_append, hfirst, Option.some_or, isWordEdge, hhead] at hl
      simpa using hl
  · cases hend : name.getLast? with
    | none => simp [hend] at hlast
    | some d =>
      rw [hend] at hlast
      rw [List.getLast?_append, hend, Option.some_or, isWordEdge, hlast] at hr
      simpa using hr

/-- More text around a line makes no difference, unless a word character meets the line. -/
theorem Occurs.within {name line : List Char} (h : Occurs name line) {pre post : List Char}
    (hpre : pre.getLast?.any isWordChar = false) (hpost : post.head?.any isWordChar = false) :
    Occurs name (pre ++ line ++ post) := by
  obtain ⟨before, after, rfl, hl, hr⟩ := h
  have hlast (front : List Char) :
      (pre ++ front).getLast?.any isWordChar = front.getLast?.any isWordChar := by
    cases hfront : front.getLast? with
    | none => simp [List.getLast?_eq_none_iff.mp hfront, hpre]
    | some c => simp [List.getLast?_append, hfront]
  have hhead (back : List Char) :
      (back ++ post).head?.any isWordChar = back.head?.any isWordChar := by
    cases back with
    | nil => simpa using hpost
    | cons c back => rfl
  refine ⟨pre ++ before, after ++ post, by simp only [List.append_assoc], ?_, ?_⟩
  · rw [isWordEdge] at hl ⊢
    rwa [← List.append_assoc, hlast, hhead]
  · rw [isWordEdge] at hr ⊢
    rwa [List.append_assoc, hlast, hhead]

/-! ## White space -/

theorem getLast?_any_of_forall {text : List Char} (h : ∀ c ∈ text, isWordChar c = false) :
    text.getLast?.any isWordChar = false := by
  cases hlast : text.getLast? with
  | none => rfl
  | some c => exact h c (List.mem_of_getLast? hlast)

theorem getLast?_any_of_blank {gap : List Char} (h : ∀ c ∈ gap, isBlank c = true) :
    gap.getLast?.any isWordChar = false :=
  getLast?_any_of_forall fun c hc => isWordChar_of_isBlank (h c hc)

theorem head?_any_of_blank {gap : List Char} (h : ∀ c ∈ gap, isBlank c = true) :
    gap.head?.any isWordChar = false := by
  cases hhead : gap.head? with
  | none => rfl
  | some c => exact isWordChar_of_isBlank (h c (List.mem_of_head? hhead))

theorem exists_trimStart (text : List Char) :
    ∃ gap, (∀ c ∈ gap, isBlank c = true) ∧ text = gap ++ trimStart text :=
  ⟨text.takeWhile isBlank, fun _ => List.mem_takeWhile_imp, List.takeWhile_append_dropWhile.symm⟩

theorem exists_trimEnd (text : List Char) :
    ∃ gap, (∀ c ∈ gap, isBlank c = true) ∧ text = trimEnd text ++ gap := by
  obtain ⟨gap, hgap, htext⟩ := exists_trimStart text.reverse
  refine ⟨gap.reverse, by simpa using hgap, ?_⟩
  rw [trimEnd, ← List.reverse_append]
  exact (List.reverse_eq_iff.mp htext)

theorem exists_trim (text : List Char) :
    ∃ before after, (∀ c ∈ before, isBlank c = true) ∧ (∀ c ∈ after, isBlank c = true) ∧
      text = before ++ (trim text ++ after) := by
  obtain ⟨before, hbefore, htext⟩ := exists_trimStart text
  obtain ⟨after, hafter, hrest⟩ := exists_trimEnd (trimStart text)
  refine ⟨before, after, hbefore, hafter, htext.trans ?_⟩
  rw [trim, ← hrest]

theorem Occurs.of_trim {name line : List Char} (h : Occurs name (trim line)) :
    Occurs name line := by
  obtain ⟨before, after, hbefore, hafter, hline⟩ := exists_trim line
  rw [hline, ← List.append_assoc]
  exact h.within (getLast?_any_of_blank hbefore) (head?_any_of_blank hafter)

theorem head?_any_of_trimStart {rest : List Char}
    (h : (trimStart rest).head?.any isWordChar = false) : rest.head?.any isWordChar = false := by
  obtain ⟨gap, hgap, hrest⟩ := exists_trimStart rest
  cases gap with
  | nil => rwa [hrest]
  | cons d gap =>
    rw [hrest]
    exact isWordChar_of_isBlank (hgap d List.mem_cons_self)

/-! ## Recognised words -/

theorem head?_any_dropWhile (text : List Char) :
    (text.dropWhile isWordChar).head?.any isWordChar = false := by
  cases hrest : text.dropWhile isWordChar with
  | nil => rfl
  | cons c rest =>
    have hnot := List.head?_dropWhile_not (p := isWordChar) (l := text)
    simpa [hrest] using hnot

theorem exists_of_word {text name rest : List Char} (h : word text = some (name, rest)) :
    text = name ++ rest ∧ name ≠ [] ∧ (∀ c ∈ name, isWordChar c = true) ∧
      rest.head?.any isWordChar = false := by
  rw [word, List.span_eq_takeWhile_dropWhile] at h
  have hcut := List.takeWhile_append_dropWhile (p := isWordChar) (l := text)
  cases hname : text.takeWhile isWordChar with
  | nil => simp [hname] at h
  | cons c found =>
    simp only [hname, Option.some.injEq, Prod.mk.injEq] at h
    obtain ⟨rfl, rfl⟩ := h
    rw [hname] at hcut
    refine ⟨hcut.symm, List.cons_ne_nil c found, fun d hd => ?_, head?_any_dropWhile text⟩
    exact List.mem_takeWhile_imp (hname ▸ hd)

/-- The name is one of the words of the text. -/
structure IsWordOf (name text : List Char) : Prop where
  ne_nil : name ≠ []
  all : ∀ c ∈ name, isWordChar c = true
  occurs : Occurs name text

theorem isWordOf_of_edges {before name after : List Char} (hne : name ≠ [])
    (hall : ∀ c ∈ name, isWordChar c = true) (hbefore : before.getLast?.any isWordChar = false)
    (hafter : after.head?.any isWordChar = false) : IsWordOf name (before ++ name ++ after) :=
  ⟨hne, hall, occurs_of_edges (hasWordEnds_of_all hne hall) hbefore hafter⟩

/-- A recognised word stands behind whatever ends in no word character. -/
theorem isWordOf_of_word {before text name rest : List Char} (h : word text = some (name, rest))
    (hbefore : before.getLast?.any isWordChar = false) : IsWordOf name (before ++ text) := by
  obtain ⟨rfl, hne, hall, hrest⟩ := exists_of_word h
  rw [← List.append_assoc]
  exact isWordOf_of_edges hne hall hbefore hrest

theorem getLast?_any_append {between : List Char} (hne : between ≠ [])
    (h : ∀ c ∈ between, isWordChar c = false) (before : List Char) :
    (before ++ between).getLast?.any isWordChar = false := by
  rw [List.getLast?_append, List.getLast?_eq_some_getLast hne]
  exact h _ (List.getLast_mem hne)

theorem IsGap.getLast?_any {gap : List Char} (h : IsGap gap) (before : List Char) :
    (before ++ gap).getLast?.any isWordChar = false :=
  getLast?_any_append h.1 (fun c hc => isWordChar_of_isBlank (h.2 c hc)) before

/-- A recognised word stands behind blanks, whatever is in front of them. -/
theorem isWordOf_of_blanks {behind text name rest : List Char} (hblanks : blanks behind = some text)
    (h : word text = some (name, rest)) (before : List Char) :
    IsWordOf name (before ++ behind) := by
  obtain ⟨gap, hgap, rfl⟩ := exists_isGap_of_blanks hblanks
  rw [← List.append_assoc]
  exact isWordOf_of_word h (hgap.getLast?_any before)

theorem exists_skipWord (first : String) (text : List Char) :
    ∃ before, text = before ++ skipWord first text := by
  unfold skipWord
  cases h : (literal first text).bind blanks with
  | none => exact ⟨[], rfl⟩
  | some rest =>
    obtain ⟨behind, hfirst, hblanks⟩ := Option.bind_eq_some_iff.mp h
    obtain ⟨gap, -, rfl⟩ := exists_isGap_of_blanks hblanks
    rw [literal, after?_eq_some_iff] at hfirst
    exact ⟨first.toList ++ gap, by rw [hfirst, List.append_assoc]; rfl⟩

end CodeAtlas.Text
