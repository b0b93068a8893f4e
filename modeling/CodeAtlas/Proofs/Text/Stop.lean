import CodeAtlas.Proofs.Text.Word

/-! # Recognisers that stop

A recogniser reads a text from its front. It never gets past a character that is neither white space
nor part of a word nor in the literals that it looks for, so that what stands behind such a
character makes no difference to it.
-/
namespace CodeAtlas.Text
variable {q : Char} {α β : Type}

/-- The function leaves the text from `q` on as it is. -/
def Keeps (q : Char) (f : List Char → List Char) : Prop :=
  ∀ front, ∃ left, ∀ rest, f (front ++ q :: rest) = left ++ q :: rest

/-- The recogniser makes its match in front of `q`, if it makes one. -/
def Stops (q : Char) (recognise : List Char → Option (List Char)) : Prop :=
  ∀ front, ∃ found : Option (List Char), ∀ rest, recognise (front ++ q :: rest) =
    found.map (· ++ q :: rest)

/-- The function does not look behind `q`. -/
def Blind (q : Char) (f : List Char → α) : Prop :=
  ∀ front rest rest', f (front ++ q :: rest) = f (front ++ q :: rest')

theorem Keeps.comp {f g : List Char → List Char} (hg : Keeps q g) (hf : Keeps q f) :
    Keeps q fun text => g (f text) := by
  intro front
  obtain ⟨between, hbetween⟩ := hf front
  obtain ⟨left, hleft⟩ := hg between
  exact ⟨left, fun rest => (congrArg g (hbetween rest)).trans (hleft rest)⟩

theorem Stops.bind {r s : List Char → Option (List Char)} (hr : Stops q r) (hs : Stops q s) :
    Stops q fun text => (r text).bind s := by
  intro front
  obtain ⟨found, hfound⟩ := hr front
  cases found with
  | none => exact ⟨none, fun rest => by simp [hfound]⟩
  | some between =>
    obtain ⟨left, hleft⟩ := hs between
    exact ⟨left, fun rest => by simp [hfound, hleft]⟩

theorem Stops.comp {r : List Char → Option (List Char)} {f : List Char → List Char} (hr : Stops q r)
    (hf : Keeps q f) : Stops q fun text => r (f text) := by
  intro front
  obtain ⟨between, hbetween⟩ := hf front
  obtain ⟨found, hfound⟩ := hr between
  exact ⟨found, fun rest => (congrArg r (hbetween rest)).trans (hfound rest)⟩

/-- Where a recogniser finds nothing, the text is left as it is. -/
theorem Stops.getD {r : List Char → Option (List Char)} (hr : Stops q r) :
    Keeps q fun text => (r text).getD text := by
  intro front
  obtain ⟨found, hfound⟩ := hr front
  cases found with
  | none => exact ⟨front, fun rest => by simp [hfound]⟩
  | some left => exact ⟨left, fun rest => by simp [hfound]⟩

theorem Stops.isSome {r : List Char → Option (List Char)} (hr : Stops q r) :
    Blind q fun text => (r text).isSome := by
  intro front rest rest'
  obtain ⟨found, hfound⟩ := hr front
  simp [hfound]

theorem Blind.bind {r : List Char → Option (List Char)} {f : List Char → Option α} (hf : Blind q f)
    (hr : Stops q r) : Blind q fun text => (r text).bind f := by
  intro front rest rest'
  obtain ⟨found, hfound⟩ := hr front
  cases found with
  | none => simp [hfound]
  | some left => simpa [hfound] using hf left rest rest'

theorem Blind.comp {f : List Char → α} {g : List Char → List Char} (hf : Blind q f)
    (hg : Keeps q g) : Blind q fun text => f (g text) := by
  intro front rest rest'
  obtain ⟨left, hleft⟩ := hg front
  simpa [hleft] using hf left rest rest'

theorem stops_findSome? {keys : List β} {r : β → List Char → Option (List Char)}
    (h : ∀ k ∈ keys, Stops q (r k)) : Stops q fun text => keys.findSome? fun k => r k text := by
  induction keys with
  | nil => exact fun front => ⟨none, fun rest => rfl⟩
  | cons k keys ih =>
    obtain ⟨hk, hkeys⟩ := List.forall_mem_cons.mp h
    intro front
    obtain ⟨first, hfirst⟩ := hk front
    obtain ⟨later, hlater⟩ := ih hkeys front
    refine ⟨first.or later, fun rest => ?_⟩
    dsimp only at hlater ⊢
    rw [List.findSome?_cons, hfirst, hlater]
    cases first <;> rfl

theorem blind_findSome? {keys : List β} {f : β → List Char → Option α}
    (h : ∀ k ∈ keys, Blind q (f k)) : Blind q fun text => keys.findSome? fun k => f k text := by
  intro front rest rest'
  induction keys with
  | nil => rfl
  | cons k keys ih =>
    obtain ⟨hk, hkeys⟩ := List.forall_mem_cons.mp h
    have hlater := ih hkeys
    dsimp only at hlater ⊢
    rw [List.findSome?_cons, List.findSome?_cons, hk front rest rest', hlater]

/-! ## The recognisers -/

theorem stops_after? {head : List Char} (h : q ∉ head) : Stops q (after? head) := by
  induction head with
  | nil => exact fun front => ⟨some front, fun rest => rfl⟩
  | cons c head ih =>
    simp only [List.mem_cons, not_or] at h
    intro front
    cases front with
    | nil => exact ⟨none, fun rest => by simp [after?, Ne.symm h.1]⟩
    | cons d front =>
      by_cases hc : c = d
      · obtain ⟨found, hfound⟩ := ih h.2 front
        exact ⟨found, fun rest => by simp [after?, hc, hfound]⟩
      · exact ⟨none, fun rest => by simp [after?, hc]⟩

theorem stops_literal {head : String} (h : q ∉ head.toList) : Stops q (literal head) :=
  stops_after? h

theorem blind_startsWith {head : String} (h : q ∉ head.toList) : Blind q (startsWith head) :=
  (stops_literal h).isSome

/-- What a text ends with is behind `q`, wherever that stands. -/
theorem endsWith_append {tail : String} (h : q ∉ tail.toList) (front front' rest : List Char) :
    endsWith tail (front ++ q :: rest) = endsWith tail (front' ++ q :: rest) := by
  have hreverse : q ∉ tail.toList.reverse := by simpa using h
  simpa [endsWith] using (stops_after? hreverse).isSome rest.reverse front.reverse front'.reverse

theorem takeWhile_append_stop {p : Char → Bool} (hq : p q = false) (front rest : List Char) :
    (front ++ q :: rest).takeWhile p = front.takeWhile p := by
  induction front with
  | nil => simp [hq]
  | cons c front ih => by_cases hc : p c = true <;> simp [hc, ih]

theorem dropWhile_append_stop {p : Char → Bool} (hq : p q = false) (front rest : List Char) :
    (front ++ q :: rest).dropWhile p = front.dropWhile p ++ q :: rest := by
  induction front with
  | nil => simp [hq]
  | cons c front ih => by_cases hc : p c = true <;> simp [hc, ih]

section Blank
variable (hblank : isBlank q = false)
include hblank

theorem trimStart_append (front rest : List Char) :
    trimStart (front ++ q :: rest) = trimStart front ++ q :: rest :=
  dropWhile_append_stop hblank front rest

theorem trimEnd_append (front rest : List Char) :
    trimEnd (front ++ q :: rest) = front ++ q :: trimEnd rest := by
  have hreverse := trimStart_append hblank rest.reverse front.reverse
  simpa [trimStart, trimEnd] using congrArg List.reverse hreverse

theorem keeps_trimStart : Keeps q trimStart :=
  fun front => ⟨trimStart front, trimStart_append hblank front⟩

theorem stops_blanks : Stops q blanks := by
  intro front
  cases front with
  | nil => exact ⟨none, fun rest => by simp [blanks, hblank]⟩
  | cons c front =>
    by_cases hc : isBlank c = true
    · exact ⟨some (trimStart front), fun rest => by simp [blanks, hc, trimStart_append hblank]⟩
    · exact ⟨none, fun rest => by simp [blanks, hc]⟩

theorem keeps_skipWord {first : String} (h : q ∉ first.toList) : Keeps q (skipWord first) :=
  ((stops_literal h).bind (stops_blanks hblank)).getD

theorem keeps_skipWords {firsts : List String} (h : ∀ first ∈ firsts, q ∉ first.toList) :
    Keeps q fun text => firsts.foldl (fun rest first => skipWord first rest) text := by
  induction firsts with
  | nil => exact fun front => ⟨front, fun rest => rfl⟩
  | cons first firsts ih =>
    obtain ⟨hfirst, hfirsts⟩ := List.forall_mem_cons.mp h
    exact (ih hfirsts).comp (keeps_skipWord hblank hfirst)

end Blank

/-- The word at the front of a text, if there is one in front of `q`, and what is left. -/
theorem exists_word_append (hword : isWordChar q = false) (front : List Char) :
    ∃ found : Option (List Char × List Char), ∀ rest,
      word (front ++ q :: rest) = found.map fun p => (p.1, p.2 ++ q :: rest) := by
  cases hname : front.takeWhile isWordChar with
  | nil =>
    exact ⟨none, fun rest => by simp [word, List.span_eq_takeWhile_dropWhile,
      takeWhile_append_stop hword, hname]⟩
  | cons c name =>
    refine ⟨some (c :: name, front.dropWhile isWordChar), fun rest => ?_⟩
    simp [word, List.span_eq_takeWhile_dropWhile, takeWhile_append_stop hword, hname,
      dropWhile_append_stop hword]

theorem blind_word (hword : isWordChar q = false) :
    Blind q fun text => (word text).map Prod.fst := by
  intro front rest rest'
  obtain ⟨found, hfound⟩ := exists_word_append hword front
  cases found <;> simp [hfound]

end CodeAtlas.Text
