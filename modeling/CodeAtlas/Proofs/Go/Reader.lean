import CodeAtlas.Go.Grammar

/-! # What readers read

A reader reads a value at a place and ends at another one if that is one of its ways. Every
combination of readers is taken apart by one lemma.
-/
namespace CodeAtlas.Go.Reader

variable {α β : Type} {p q : Reader α} {c d : Cursor} {a : α}

/-- The reader has a way to read the value from the first place to the second. -/
def Reads (p : Reader α) (c : Cursor) (a : α) (d : Cursor) : Prop :=
  ∃ w ∈ p c, w.value = a ∧ w.behind = d

theorem Reads.leads (h : Reads p c a d) : c.Leads d := by
  obtain ⟨w, -, -, rfl⟩ := h
  exact w.leads

@[simp] theorem reads_pure {b : α} : Reads (pure b) c a d ↔ b = a ∧ c = d := by
  simp [Reads, pure]

@[simp] theorem reads_bind {f : α → Reader β} {b : β} :
    Reads (p >>= f) c b d ↔ ∃ a e, Reads p c a e ∧ Reads (f a) e b d := by
  simp only [Reads, bind, List.mem_flatMap, List.mem_map]
  constructor
  · rintro ⟨_, ⟨w, hw, v, hv, rfl⟩, rfl, rfl⟩
    exact ⟨w.value, w.behind, ⟨w, hw, rfl, rfl⟩, v, hv, rfl, rfl⟩
  · rintro ⟨_, _, ⟨w, hw, rfl, rfl⟩, v, hv, rfl, rfl⟩
    exact ⟨w.andThen v, ⟨w, hw, v, hv, rfl⟩, rfl, rfl⟩

@[simp] theorem reads_map {f : α → β} {b : β} :
    Reads (f <$> p) c b d ↔ ∃ a, Reads p c a d ∧ f a = b := by
  refine Iff.trans (reads_bind (p := p) (f := fun a => pure (f a))) ?_
  simp only [reads_pure]
  constructor
  · rintro ⟨a, _, h, hb, rfl⟩
    exact ⟨a, h, hb⟩
  · rintro ⟨a, h, hb⟩
    exact ⟨a, d, h, hb, rfl⟩

@[simp] theorem reads_seqRight {q : Reader β} {b : β} :
    Reads (p *> q) c b d ↔ ∃ a e, Reads p c a e ∧ Reads q e b d :=
  reads_bind (p := p) (f := fun _ => q)

@[simp] theorem reads_seqLeft {q : Reader β} :
    Reads (p <* q) c a d ↔ ∃ e b, Reads p c a e ∧ Reads q e b d := by
  refine Iff.trans (reads_bind (p := p) (f := fun a => q >>= fun _ => pure a)) ?_
  simp only [reads_bind, reads_pure]
  constructor
  · rintro ⟨_, e, h, b, _, h', rfl, rfl⟩
    exact ⟨e, b, h, h'⟩
  · rintro ⟨e, b, h, h'⟩
    exact ⟨a, e, h, b, d, h', rfl, rfl⟩

@[simp] theorem reads_yielding {b x : β} :
    Reads (p.yielding b) c x d ↔ b = x ∧ ∃ a, Reads p c a d := by
  simp only [yielding, reads_seqRight, reads_pure]
  constructor
  · rintro ⟨a, _, h, hb, rfl⟩
    exact ⟨hb, a, h⟩
  · rintro ⟨hb, a, h⟩
    exact ⟨a, d, h, hb, rfl⟩

@[simp] theorem not_reads_fail : ¬ Reads (fail : Reader α) c a d := by
  simp [Reads, fail]

@[simp] theorem reads_either : Reads (either p q) c a d ↔ Reads p c a d ∨ Reads q c a d := by
  simp only [Reads, either, List.mem_append, or_and_right, exists_or]

/-- The second reader is asked only where the first one reads nothing. -/
theorem Reads.or_of_orElse (h : Reads (p <|> q) c a d) :
    Reads p c a d ∨ (∀ b e, ¬ Reads p c b e) ∧ Reads q c a d := by
  obtain ⟨w, hw, hvalue⟩ := h
  change w ∈ orElse p (fun _ => q) c at hw
  rw [orElse] at hw
  split at hw
  next hempty => exact Or.inr ⟨by simp [Reads, hempty], w, hw, hvalue⟩
  next => exact Or.inl ⟨w, hw, hvalue⟩

theorem Reads.of_orElse (h : Reads (p <|> q) c a d) : Reads p c a d ∨ Reads q c a d :=
  h.or_of_orElse.imp_right And.right

theorem Reads.of_perhaps {a : Option α} (h : Reads (perhaps p) c a d) :
    (∃ b, a = some b ∧ Reads p c b d) ∨ a = none ∧ c = d := by
  rcases h.of_orElse with h | h
  · obtain ⟨b, hb, rfl⟩ := reads_map.mp h
    exact Or.inl ⟨b, rfl, hb⟩
  · obtain ⟨rfl, rfl⟩ := reads_pure.mp h
    exact Or.inr ⟨rfl, rfl⟩

@[simp] theorem reads_check {b : Bool} {u : Unit} : Reads (check b) c u d ↔ b = true ∧ c = d := by
  cases b with
  | true => exact reads_pure.trans (by simp)
  | false => exact iff_of_false not_reads_fail (by simp)

@[simp] theorem reads_look {f : Cursor → α} : Reads (look f) c a d ↔ f c = a ∧ c = d := by
  simp [Reads, look]

@[simp] theorem reads_here {e : Cursor} : Reads here c e d ↔ c = e ∧ c = d := reads_look

@[simp] theorem reads_next? {crossing : Bool} {ch : Option Char} :
    Reads (next? crossing) c ch d ↔ (c.skip crossing).peek? = ch ∧ c = d := reads_look

@[simp] theorem reads_start {crossing : Bool} {e : Cursor} :
    Reads (start crossing) c e d ↔ c.skip crossing = e ∧ c.skip crossing = d := by
  simp [Reads, start]

@[simp] theorem reads_behindGap {f : Cursor → Option (α × Cursor)}
    {h : ∀ c a d, f c = some (a, d) → c.Leads d} {crossing : Bool} :
    Reads (behindGap f h crossing) c a d ↔ f (c.skip crossing) = some (a, d) := by
  unfold Reads behindGap
  split
  next b e hf => simp [hf]
  next hf => simp [hf]

theorem reads_passing {f : Cursor → Option Cursor} {h : ∀ c d, f c = some d → c.Leads d}
    {crossing : Bool} {u : Unit} :
    Reads (passing f h crossing) c u d ↔ f (c.skip crossing) = some d := by
  simp [passing]

@[simp] theorem reads_token {s : String} {crossing : Bool} {u : Unit} :
    Reads (token s crossing) c u d ↔ (c.skip crossing).sign? s = some d := reads_passing

@[simp] theorem reads_keyword {w : String} {crossing : Bool} {u : Unit} :
    Reads (keyword w crossing) c u d ↔ (c.skip crossing).keyword? w = some d := reads_passing

@[simp] theorem reads_identifier {crossing : Bool} {name : String} :
    Reads (identifier crossing) c name d ↔ (c.skip crossing).identifier? = some (name,
      d) := reads_behindGap

/-- The signs that end a statement. -/
def terminators : List String := ["\n", ";", "\x00"]

theorem exists_token_of_terminator {u : Unit} (h : Reads terminator c u d) :
    ∃ s ∈ terminators, Reads (token s false) c u d := by
  rcases h.of_orElse with h | h
  · exact ⟨"\n", by decide, h⟩
  · rcases h.of_orElse with h | h
    · exact ⟨";", by decide, h⟩
    · exact ⟨"\x00", by decide, h⟩

/-! ## Repetitions -/

/-- The values are read one behind the other. -/
inductive ReadsAll (p : Reader α) : Cursor → List α → Cursor → Prop
  | nil (c : Cursor) : ReadsAll p c [] c
  | cons {c d e : Cursor} {a : α} {as : List α} (h : Reads p c a d) (hs : ReadsAll p d as e) :
    ReadsAll p c (a :: as) e

theorem readsAll_of_manyUpTo {bound : Nat} {as : List α} (h : Reads (manyUpTo p bound) c as d) :
    ReadsAll p c as d := by
  induction bound generalizing c as with
  | zero =>
    obtain ⟨rfl, rfl⟩ := reads_pure.mp h
    exact .nil c
  | succ bound ih =>
    rcases h.of_orElse with h | h
    · simp only [reads_bind, reads_pure] at h
      obtain ⟨a, e, hfirst, rest, _, hrest, rfl, rfl⟩ := h
      exact .cons hfirst (ih hrest)
    · obtain ⟨rfl, rfl⟩ := reads_pure.mp h
      exact .nil c

theorem Reads.of_many {as : List α} (h : Reads (many p) c as d) : ReadsAll p c as d :=
  readsAll_of_manyUpTo h

theorem exists_of_terminatedUpTo {bound : Nat} {as : List α}
    (h : Reads (terminatedUpTo p bound) c as d) (ha : a ∈ as) :
    ∃ e e', Reads p e a e' ∧ (e = c ∨ ∃ b, c.Leads b ∧ Reads terminator b () e) := by
  induction bound generalizing c as with
  | zero =>
    obtain ⟨rfl, rfl⟩ := reads_pure.mp h
    cases ha
  | succ bound ih =>
    rcases h.of_orElse with h | h
    · simp only [reads_bind, reads_pure] at h
      obtain ⟨first, e, hfirst, rest, _, hrest, rfl, rfl⟩ := h
      rcases List.mem_cons.mp ha with rfl | ha
      · exact ⟨c, e, hfirst, Or.inl rfl⟩
      rcases hrest.of_orElse with hrest | hrest
      · obtain ⟨_, e', hend, hrest⟩ := reads_seqRight.mp hrest
        obtain ⟨f, f', hread, rfl | ⟨b, hleads, hbehind⟩⟩ := ih hrest ha
        · exact ⟨f, f', hread, Or.inr ⟨e, hfirst.leads, hend⟩⟩
        · exact ⟨f, f', hread, Or.inr ⟨b, (hfirst.leads.trans hend.leads).trans hleads, hbehind⟩⟩
      · obtain ⟨rfl, -⟩ := reads_pure.mp hrest
        cases ha
    · obtain ⟨rfl, rfl⟩ := reads_pure.mp h
      cases ha

/-- Each value is read at the beginning or behind a terminator. -/
theorem Reads.exists_of_terminated {as : List α} (h : Reads (terminated p) c as d) (ha : a ∈ as) :
    ∃ e e', Reads p e a e' ∧ (e = c ∨ ∃ b, c.Leads b ∧ Reads terminator b () e) :=
  exists_of_terminatedUpTo h ha

end CodeAtlas.Go.Reader
