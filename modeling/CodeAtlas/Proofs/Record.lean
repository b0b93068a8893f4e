import CodeAtlas.Record
import Mathlib.Data.List.Basic

/-! # Records that can be read

A record is read if every field of it is, and what is refused is refused for a reason: there is a
problem, and every problem names the field that it is about.
-/
namespace CodeAtlas.Record

variable {α β : Type}

/-! ## Values -/

section Values
variable {f : Checked (α → β)} {x : Checked α} {a : α} {b : β}

theorem map_eq_ok_iff {f : α → β} : f <$> x = .ok b ↔ ∃ a, x = .ok a ∧ f a = b := by
  change Checked.map f x = .ok b ↔ _
  cases x <;> simp [Checked.map]

theorem seq_eq_ok_iff : f <*> x = .ok b ↔ ∃ g, f = .ok g ∧ ∃ a, x = .ok a ∧ g a = b := by
  change Checked.apply f x = .ok b ↔ _
  cases f <;> cases x <;> simp [Checked.apply]

theorem andThen_eq_ok_iff {next : α → Checked β} :
    x.andThen next = .ok b ↔ ∃ a, x = .ok a ∧ next a = .ok b := by
  cases x <;> simp [Checked.andThen]

theorem under_eq_ok_iff {step : Step} : x.under step = .ok a ↔ x = .ok a := by
  cases x <;> simp [Checked.under]

end Values

/-- What is said of a field: it is there and can be read, or it is left out and has its default. -/
inductive Says (fields : List (String × Value)) (name : String) (reader : Reader α) (default : α) :
    α → Prop
  | given {v : Value} {a : α} (hfield : fields.lookup name = some v) (hread : reader v = .ok a) :
    Says fields name reader default a
  | absent (hfield : fields.lookup name = none) : Says fields name reader default default

section Fields
variable {fields : List (String × Value)} {name : String} {reader : Reader α} {default a : α}

theorem withDefault_eq_ok_iff : withDefault fields name reader default = .ok a ↔
    Says fields name reader default a := by
  unfold withDefault
  cases hfield : fields.lookup name with
  | some v =>
    change (reader v).under (.field name) = .ok a ↔ _
    rw [under_eq_ok_iff]
    constructor
    · exact .given hfield
    · intro h
      cases h with
      | given hfield' hread =>
        rw [hfield] at hfield'
        rwa [Option.some.inj hfield']
      | absent hfield' =>
        rw [hfield] at hfield'
        cases hfield'
  | none =>
    constructor
    · intro h
      cases h
      exact .absent hfield
    · intro h
      cases h with
      | given hfield' hread =>
        rw [hfield] at hfield'
        cases hfield'
      | absent => rfl

theorem Says.imp {p : α → Prop} (h : Says fields name reader default a)
    (hread : ∀ v a, reader v = .ok a → p a) (hdefault : p default) : p a := by
  cases h with
  | given _ h => exact hread _ _ h
  | absent => exact hdefault

theorem noOthers_eq_ok_iff {known : List String} {fields : List (String × Value)} {u : Unit} :
    noOthers known fields = .ok u ↔ ∀ x ∈ fields, x.1 ∈ known := by
  have hfilter : fields.filter (!known.contains ·.1) = [] ↔ ∀ x ∈ fields, x.1 ∈ known := by simp
  rw [← hfilter, noOthers]
  cases fields.filter (!known.contains ·.1) <;> simp

end Fields

/-! ## Problems -/

/-- Whether there is a problem with every value that is refused, and every problem is at a place of
the given kind. -/
def RefusesAt (place : List Step → Prop) (x : Checked α) : Prop :=
  ∀ problems, x = .refused problems → problems ≠ [] ∧ ∀ p ∈ problems, place p.place

section Problems
variable {place : List Step → Prop}

theorem refusesAt_ok (a : α) : RefusesAt place (.ok a) := by
  intro problems h
  cases h

theorem refusesAt_fault {fault : Fault} (h : place []) :
    RefusesAt (α := α) place (.fault fault) := by
  intro problems heq
  cases heq
  simpa using h

theorem RefusesAt.andThen {x : Checked α} {next : α → Checked β} (hx : RefusesAt place x)
    (hnext : ∀ a, RefusesAt place (next a)) : RefusesAt place (x.andThen next) := by
  intro problems heq
  cases x with
  | ok a => exact hnext a problems heq
  | refused ps =>
    cases heq
    exact hx _ rfl

theorem RefusesAt.map {f : α → β} {x : Checked α} (h : RefusesAt place x) :
    RefusesAt place (f <$> x) := by
  intro problems heq
  cases x with
  | ok a => cases heq
  | refused ps =>
    cases heq
    exact h _ rfl

/-- The problems of both are kept. -/
theorem RefusesAt.seq {f : Checked (α → β)} {x : Checked α} (hf : RefusesAt place f)
    (hx : RefusesAt place x) : RefusesAt place (f <*> x) := by
  intro problems heq
  cases f with
  | ok g =>
    cases x with
    | ok a => cases heq
    | refused ps =>
      cases heq
      exact hx _ rfl
  | refused ps =>
    cases x with
    | ok a =>
      cases heq
      exact hf _ rfl
    | refused qs =>
      cases heq
      obtain ⟨hne, hps⟩ := hf ps rfl
      obtain ⟨-, hqs⟩ := hx qs rfl
      exact ⟨List.append_ne_nil_of_left_ne_nil hne qs, List.forall_mem_append.mpr ⟨hps, hqs⟩⟩

theorem RefusesAt.under {x : Checked α} {step : Step}
    (h : RefusesAt (fun rest => place (step :: rest)) x) : RefusesAt place (x.under step) := by
  intro problems heq
  cases x with
  | ok a => cases heq
  | refused ps =>
    cases heq
    obtain ⟨hne, hps⟩ := h ps rfl
    refine ⟨by simpa using hne, ?_⟩
    rw [List.forall_mem_map]
    exact hps

theorem refusesAt_noOthers {known : List String} {fields : List (String × Value)}
    (h : ∀ x ∈ fields, place [.field x.1]) : RefusesAt place (noOthers known fields) := by
  intro problems heq
  unfold noOthers at heq
  split at heq
  next => cases heq
  next hunknown =>
    cases heq
    refine ⟨by simpa using hunknown, ?_⟩
    rw [List.forall_mem_map]
    intro x hx
    exact h x (List.mem_of_mem_filter hx)

end Problems

/-! ## Readers -/

/-- Whether a reader has a problem with every value that it refuses. -/
def Explains (reader : Reader α) : Prop := ∀ v, RefusesAt (fun _ => True) (reader v)

theorem explains_text : Explains text := by
  intro v
  cases v with
  | string s => exact refusesAt_ok s
  | _ => exact refusesAt_fault trivial

theorem explains_truth : Explains truth := by
  intro v
  unfold truth
  split
  next b => exact refusesAt_ok b
  next n =>
    split_ifs
    · exact refusesAt_ok false
    · exact refusesAt_ok true
    · exact refusesAt_fault trivial
  next x =>
    split
    next => exact refusesAt_ok false
    next => exact refusesAt_ok true
    next => exact refusesAt_fault trivial
    next => exact refusesAt_fault trivial
  next s =>
    split
    next b _ => exact refusesAt_ok b
    next => exact refusesAt_fault trivial
  next => exact refusesAt_fault trivial

theorem explains_integer : Explains integer := by
  intro v
  unfold integer
  split
  next n => exact refusesAt_ok n
  next b => exact refusesAt_ok _
  next x =>
    split
    next => exact refusesAt_fault trivial
    next =>
      split
      next n _ => exact refusesAt_ok n
      next => exact refusesAt_fault trivial
  next s =>
    split
    next n _ =>
      split_ifs
      · exact refusesAt_fault trivial
      · exact refusesAt_ok n
    next => exact refusesAt_fault trivial
  next => exact refusesAt_fault trivial

theorem explains_integerFrom (least : Int) : Explains (integerFrom least) := by
  intro v
  apply (explains_integer v).andThen
  intro n
  split_ifs
  · exact refusesAt_fault trivial
  · exact refusesAt_ok n

theorem refusesAt_elementsFrom {element : Reader α} (h : Explains element) (index : Nat)
    (items : List Value) : RefusesAt (fun _ => True) (elementsFrom element index items) := by
  induction items generalizing index with
  | nil => exact refusesAt_ok []
  | cons v rest ih => exact (h v).under.map.seq (ih (index + 1))

theorem explains_list {element : Reader α} (h : Explains element) : Explains (list element) := by
  intro v
  cases v with
  | array items => exact refusesAt_elementsFrom h 0 items
  | _ => exact refusesAt_fault trivial

/-- The problems of a field are placed in the field, and it is there. -/
theorem refusesAt_withDefault {place : List Step → Prop} {fields : List (String × Value)}
    {name : String} {reader : Reader α} (h : Explains reader)
    (hplace : ∀ v rest, fields.lookup name = some v → place (.field name :: rest)) (default : α) :
    RefusesAt place (withDefault fields name reader default) := by
  unfold withDefault
  cases hfield : fields.lookup name with
  | none => exact refusesAt_ok default
  | some v =>
    apply RefusesAt.under
    intro problems heq
    obtain ⟨hne, -⟩ := h v problems heq
    exact ⟨hne, fun p _ => hplace v p.place hfield⟩

/-- An integer that is read from a bound on is not below it. -/
theorem le_of_integerFrom {least n : Int} {v : Value} (h : integerFrom least v = .ok n) :
    least ≤ n := by
  obtain ⟨m, -, h⟩ := andThen_eq_ok_iff.mp h
  split_ifs at h with hlt
  · cases h
  · cases h
    exact Int.not_lt.mp hlt

end CodeAtlas.Record
