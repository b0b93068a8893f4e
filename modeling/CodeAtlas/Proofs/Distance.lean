import Mathlib.Data.List.Basic
import Mathlib.Data.Set.Card

/-! # Distances by breadth-first search

A relation is given by the list of what each element leads to; circles, loops and repetitions are
allowed. The distance of an element is the length of a shortest chain to it. Going on from level to
level, with everything left out that was seen before, lists the elements by their distance: each one
once, in the order in which it is first come across.
-/
namespace CodeAtlas.Distance

variable {α : Type}

/-- A chain of so many steps from `start`. -/
inductive Chain (next : α → List α) (start : α) : Nat → α → Prop
  | start : Chain next start 0 start
  | step {k : Nat} {a b : α} (h : Chain next start k a) (hb : b ∈ next a) :
      Chain next start (k + 1) b

/-- The shortest chain from `start` to the element has so many steps. -/
def IsDistance (next : α → List α) (start : α) (k : Nat) (a : α) : Prop :=
  Chain next start k a ∧ ∀ j, Chain next start j a → k ≤ j

variable {next : α → List α} {start : α}

theorem chain_zero_iff {a : α} : Chain next start 0 a ↔ a = start := by
  constructor
  · intro h
    cases h
    rfl
  · rintro rfl
    exact .start

theorem isDistance_zero_iff {a : α} : IsDistance next start 0 a ↔ a = start := by
  rw [IsDistance, chain_zero_iff]
  exact and_iff_left fun _ _ => Nat.zero_le _

theorem IsDistance.unique {j k : Nat} {a : α} (hj : IsDistance next start j a)
    (hk : IsDistance next start k a) : j = k :=
  Nat.le_antisymm (hj.2 k hk.1) (hk.2 j hj.1)

theorem exists_isDistance {k : Nat} {a : α} (h : Chain next start k a) :
    ∃ j ≤ k, IsDistance next start j a := by
  classical
  have hex : ∃ j, Chain next start j a := ⟨k, h⟩
  exact ⟨Nat.find hex, Nat.find_min' hex h, Nat.find_spec hex, fun _ => Nat.find_min' hex⟩

/-! ## What has not been seen -/

variable [DecidableEq α]

/-- The elements of a list that have not been seen, each where it stands first. -/
def fresh (seen : List α) : List α → List α
  | [] => []
  | a :: rest => if a ∈ seen then fresh seen rest else a :: fresh (a :: seen) rest

theorem mem_fresh {seen xs : List α} {a : α} : a ∈ fresh seen xs ↔ a ∈ xs ∧ a ∉ seen := by
  induction xs generalizing seen with
  | nil => simp [fresh]
  | cons b rest ih =>
    by_cases hb : b ∈ seen
    · rw [fresh, if_pos hb, ih, List.mem_cons]
      constructor
      · rintro ⟨ha, hseen⟩
        exact ⟨Or.inr ha, hseen⟩
      · rintro ⟨rfl | ha, hseen⟩
        · exact absurd hb hseen
        · exact ⟨ha, hseen⟩
    · rw [fresh, if_neg hb, List.mem_cons, ih, List.mem_cons, List.mem_cons]
      by_cases hab : a = b
      · subst hab
        simp [hb]
      · simp [hab]

theorem nodup_fresh (seen xs : List α) : (fresh seen xs).Nodup := by
  induction xs generalizing seen with
  | nil => exact List.nodup_nil
  | cons a rest ih =>
    rw [fresh]
    split
    · exact ih seen
    · exact List.nodup_cons.mpr ⟨fun h => (mem_fresh.mp h).2 List.mem_cons_self, ih _⟩

/-- Elements come in the order in which they are first come across. -/
theorem pairwise_idxOf_fresh (seen xs : List α) :
    (fresh seen xs).Pairwise fun a b => xs.idxOf a < xs.idxOf b := by
  induction xs generalizing seen with
  | nil => exact List.Pairwise.nil
  | cons x rest ih =>
    -- behind `x` the places in the list are those in the rest, one further on
    have hstep {seen' : List α} (hx : x ∈ seen') :
        (fresh seen' rest).Pairwise fun a b => (x :: rest).idxOf a < (x :: rest).idxOf b := by
      refine (ih seen').imp_of_mem fun {a b} ha hb hlt => ?_
      have hax : x ≠ a := fun h => (mem_fresh.mp ha).2 (h ▸ hx)
      have hbx : x ≠ b := fun h => (mem_fresh.mp hb).2 (h ▸ hx)
      rw [List.idxOf_cons_ne _ hax, List.idxOf_cons_ne _ hbx]
      omega
    rw [fresh]
    split
    next hx => exact hstep hx
    next =>
      refine List.pairwise_cons.mpr ⟨fun b hb => ?_, hstep List.mem_cons_self⟩
      have hbx : x ≠ b := fun h => (mem_fresh.mp hb).2 (h ▸ List.mem_cons_self)
      rw [List.idxOf_cons_self, List.idxOf_cons_ne _ hbx]
      exact Nat.succ_pos _

theorem fresh_congr {seen seen' xs : List α} (h : ∀ a ∈ xs, a ∈ seen ↔ a ∈ seen') :
    fresh seen xs = fresh seen' xs := by
  induction xs generalizing seen seen' with
  | nil => rfl
  | cons a rest ih =>
    obtain ⟨ha, hrest⟩ := List.forall_mem_cons.mp h
    by_cases hseen : a ∈ seen
    · rw [fresh, fresh, if_pos hseen, if_pos (ha.mp hseen), ih hrest]
    · rw [fresh, fresh, if_neg hseen, if_neg fun h' => hseen (ha.mpr h')]
      have hcons : ∀ b ∈ rest, b ∈ a :: seen ↔ b ∈ a :: seen' := fun b hb => by
        simp only [List.mem_cons, hrest b hb]
      rw [ih hcons]

theorem filter_fresh (p : α → Bool) (seen xs : List α) :
    (fresh seen xs).filter p = fresh seen (xs.filter p) := by
  induction xs generalizing seen with
  | nil => rfl
  | cons a rest ih =>
    by_cases hp : p a = true
    · rw [List.filter_cons_of_pos hp, fresh, fresh]
      split
      · exact ih seen
      · rw [List.filter_cons_of_pos hp, ih]
    · rw [List.filter_cons_of_neg hp, fresh]
      split
      · exact ih seen
      · rw [List.filter_cons_of_neg hp, ih]
        -- `a` is not among what is left, so it does not matter whether it was seen
        refine fresh_congr fun b hb => ?_
        have hba : b ≠ a := fun h => hp (h ▸ (List.mem_filter.mp hb).2)
        simp [hba]

/-! ## Levels -/

/-- The elements that are new after so many rounds, and all that have been seen by then. -/
def rounds (next : α → List α) (start : α) : Nat → List α × List α
  | 0 => ([start], [start])
  | k + 1 =>
    let (level, seen) := rounds next start k
    let new := fresh seen (level.flatMap next)
    (new, new ++ seen)

/-- The elements that are new after so many rounds. -/
def level (next : α → List α) (start : α) (k : Nat) : List α := (rounds next start k).1

/-- The elements that have been seen after so many rounds. -/
def seen (next : α → List α) (start : α) (k : Nat) : List α := (rounds next start k).2

@[simp] theorem level_zero : level next start 0 = [start] := rfl

@[simp] theorem seen_zero : seen next start 0 = [start] := rfl

theorem level_succ (k : Nat) :
    level next start (k + 1) = fresh (seen next start k) ((level next start k).flatMap next) := rfl

theorem seen_succ (k : Nat) :
    seen next start (k + 1) = level next start (k + 1) ++ seen next start k := rfl

theorem level_succ_eq_nil {k : Nat} (h : level next start k = []) :
    level next start (k + 1) = [] := by
  rw [level_succ, h]
  rfl

theorem seen_mono {j k : Nat} (h : j ≤ k) {a : α} (ha : a ∈ seen next start j) :
    a ∈ seen next start k := by
  induction h with
  | refl => exact ha
  | step _ ih =>
    rw [seen_succ]
    exact List.mem_append_right _ ih

theorem mem_seen_iff_level {k : Nat} {a : α} :
    a ∈ seen next start k ↔ ∃ j ≤ k, a ∈ level next start j := by
  induction k with
  | zero => simp
  | succ k ih =>
    rw [seen_succ, List.mem_append, ih]
    constructor
    · rintro (h | ⟨j, hj, h⟩)
      · exact ⟨k + 1, le_rfl, h⟩
      · exact ⟨j, by omega, h⟩
    · rintro ⟨j, hj, h⟩
      rcases Nat.le_succ_iff.mp hj with hj | rfl
      · exact Or.inr ⟨j, hj, h⟩
      · exact Or.inl h

theorem chain_of_mem_level {k : Nat} {a : α} (h : a ∈ level next start k) :
    Chain next start k a := by
  induction k generalizing a with
  | zero => exact chain_zero_iff.mpr (List.mem_singleton.mp h)
  | succ k ih =>
    rw [level_succ, mem_fresh, List.mem_flatMap] at h
    obtain ⟨⟨b, hb, hab⟩, -⟩ := h
    exact .step (ih hb) hab

/-- What an element of a level leads to is seen one round later at the latest. -/
theorem mem_seen_succ {k : Nat} {a b : α} (ha : a ∈ level next start k) (hb : b ∈ next a) :
    b ∈ seen next start (k + 1) := by
  rw [seen_succ, List.mem_append, level_succ, mem_fresh, List.mem_flatMap]
  by_cases hseen : b ∈ seen next start k
  · exact Or.inr hseen
  · exact Or.inl ⟨⟨a, ha, hb⟩, hseen⟩

theorem mem_seen_of_chain {k : Nat} {a : α} (h : Chain next start k a) : a ∈ seen next start k := by
  induction h with
  | start => exact List.mem_singleton_self start
  | step _ hb ih =>
    obtain ⟨j, hj, ha⟩ := mem_seen_iff_level.mp ih
    exact seen_mono (Nat.succ_le_succ hj) (mem_seen_succ ha hb)

/-- The levels list the elements by their distance. -/
theorem mem_level_iff {k : Nat} {a : α} : a ∈ level next start k ↔ IsDistance next start k a := by
  constructor
  · intro h
    refine ⟨chain_of_mem_level h, fun j hj => Nat.not_lt.mp fun hlt => ?_⟩
    obtain ⟨k, rfl⟩ := Nat.exists_eq_succ_of_ne_zero (Nat.ne_of_gt (Nat.zero_lt_of_lt hlt))
    rw [level_succ, mem_fresh] at h
    exact h.2 (seen_mono (Nat.le_of_lt_succ hlt) (mem_seen_of_chain hj))
  · intro h
    obtain ⟨j, hj, ha⟩ := mem_seen_iff_level.mp (mem_seen_of_chain h.1)
    have hkj := h.2 j (chain_of_mem_level ha)
    rwa [Nat.le_antisymm hkj hj]

theorem nodup_level (next : α → List α) (start : α) (k : Nat) : (level next start k).Nodup := by
  cases k with
  | zero => exact List.nodup_singleton start
  | succ k => exact nodup_fresh _ _

/-- Lists of elements by their distance, each one once. Those behind the start come in the order in
which the level before leads to them first. -/
structure IsBreadthFirst (next : α → List α) (start : α) (levels : Nat → List α) : Prop where
  mem_iff : ∀ k a, a ∈ levels k ↔ IsDistance next start k a
  nodup : ∀ k, (levels k).Nodup
  first_discovery : ∀ k, (levels (k + 1)).Pairwise fun a b =>
    ((levels k).flatMap next).idxOf a < ((levels k).flatMap next).idxOf b

theorem isBreadthFirst_level (next : α → List α) (start : α) :
    IsBreadthFirst next start (level next start) where
  mem_iff _ _ := mem_level_iff
  nodup := nodup_level next start
  first_discovery _ := pairwise_idxOf_fresh _ _

/-! ## What is within reach -/

/-- The elements at the distances from one to `depth`, level by level. -/
def reached (next : α → List α) (start : α) (depth : Nat) : List α :=
  (List.range' 1 depth).flatMap (level next start)

theorem mem_reached_iff {depth : Nat} {a : α} :
    a ∈ reached next start depth ↔ a ≠ start ∧ ∃ k ≤ depth, Chain next start k a := by
  simp only [reached, List.mem_flatMap, List.mem_range'_1, mem_level_iff]
  constructor
  · rintro ⟨k, ⟨hpos, hk⟩, h⟩
    refine ⟨fun hstart => ?_, k, by omega, h.1⟩
    have := h.unique (isDistance_zero_iff.mpr hstart)
    omega
  · rintro ⟨hstart, k, hk, h⟩
    obtain ⟨j, hj, hdistance⟩ := exists_isDistance h
    refine ⟨j, ⟨Nat.one_le_iff_ne_zero.mpr ?_, by omega⟩, hdistance⟩
    rintro rfl
    exact hstart (isDistance_zero_iff.mp hdistance)

theorem nodup_reached (next : α → List α) (start : α) (depth : Nat) :
    (reached next start depth).Nodup := by
  refine List.nodup_flatMap.mpr ⟨fun k _ => nodup_level next start k, ?_⟩
  refine List.Pairwise.imp (fun {j k} hlt a ha hb => ?_) List.pairwise_lt_range'
  have := (mem_level_iff.mp ha).unique (mem_level_iff.mp hb)
  omega

theorem reached_succ (next : α → List α) (start : α) (depth : Nat) :
    reached next start (depth + 1) = reached next start depth ++ level next start (depth + 1) := by
  rw [reached, List.range'_1_concat, List.flatMap_append, List.flatMap_singleton,
    Nat.add_comm 1 depth]
  rfl

/-- Levels that are not empty hold as many elements together as there are levels, or more. -/
theorem le_length_reached {depth : Nat} (h : ∀ k, 1 ≤ k → k ≤ depth → level next start k ≠ []) :
    depth ≤ (reached next start depth).length := by
  induction depth with
  | zero => exact Nat.zero_le _
  | succ depth ih =>
    have hlevel := List.length_pos_iff.mpr (h (depth + 1) (Nat.succ_pos depth) le_rfl)
    have hbefore := ih fun k hpos hk => h k hpos (Nat.le_succ_of_le hk)
    rw [reached_succ, List.length_append]
    omega

theorem ncard_within (next : α → List α) (start : α) (depth : Nat) :
    {a | a ≠ start ∧ ∃ k ≤ depth, Chain next start k a}.ncard =
      (reached next start depth).length := by
  have hset : {a | a ≠ start ∧ ∃ k ≤ depth, Chain next start k a} =
      ((reached next start depth).toFinset : Set α) := by
    ext a
    rw [Set.mem_ofPred_eq, List.coe_toFinset, Set.mem_ofPred_eq, mem_reached_iff]
  rw [hset, Set.ncard_coe_finset, List.toFinset_card_of_nodup (nodup_reached next start depth)]

end CodeAtlas.Distance
