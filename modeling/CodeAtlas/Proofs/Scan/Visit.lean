import CodeAtlas.Scan.SourceFiles
import Mathlib.Data.List.Nodup

/-! # The order of visits

Everything below a directory is visited in one order, however the tree lists it. The answer of an
enumeration is put in ascending order in the end, so the order of visits tells nothing but which of
several faults is met first.
-/
namespace CodeAtlas

/-! ## Lists that are gone through -/

section FilterMapM
variable {ε α β : Type} {f g : α → Except ε (Option β)} {as : List α}

/-- A list is gone through to its end exactly if none of its members has a fault. -/
theorem filterMapM_eq_ok_iff {bs : List β} : as.filterMapM f = .ok bs ↔
    (∀ a ∈ as, ∃ b, f a = .ok b) ∧ bs = as.filterMap fun a => (f a).toOption.join := by
  induction as generalizing bs with
  | nil =>
    rw [List.filterMapM_nil]
    simp [pure, Except.pure, eq_comm]
  | cons a as ih =>
    rw [List.filterMapM_cons, List.forall_mem_cons, List.filterMap_cons]
    cases ha : f a with
    | error e => simp [bind, Except.bind]
    | ok b =>
      cases b with
      | none => simpa [bind, Except.bind, Except.toOption] using ih
      | some b =>
        cases hrest : as.filterMapM f with
        | error e =>
          have hfault : ¬ ∀ a ∈ as, ∃ b, f a = .ok b := by
            intro h
            cases hrest.symm.trans (ih.mpr ⟨h, rfl⟩)
          simp [bind, Except.bind, hfault]
        | ok rest =>
          obtain ⟨hall, hrest⟩ := ih.mp hrest
          rw [← hrest]
          simp only [bind, Except.bind, pure, Except.pure, Except.toOption, Except.ok.injEq,
            Option.join_some]
          exact ⟨fun h => ⟨⟨⟨_, rfl⟩, hall⟩, h.symm⟩, fun h => h.2.symm⟩

theorem exists_of_filterMapM_eq_error {e : ε} (h : as.filterMapM f = .error e) :
    ∃ a ∈ as, f a = .error e := by
  induction as with
  | nil => cases h
  | cons a as ih =>
    rw [List.filterMapM_cons] at h
    cases ha : f a with
    | error e' =>
      rw [ha] at h
      exact ⟨a, List.mem_cons_self, Except.error.inj h ▸ ha⟩
    | ok b =>
      have hrest : as.filterMapM f = .error e := by
        cases hrest : as.filterMapM f with
        | error e' => cases b <;> simpa [ha, hrest, bind, Except.bind] using h
        | ok bs => cases b <;> simp [ha, hrest, bind, Except.bind, pure, Except.pure] at h
      obtain ⟨a', hmem, ha'⟩ := ih hrest
      exact ⟨a', List.mem_cons_of_mem a hmem, ha'⟩

theorem filterMapM_congr (h : ∀ a ∈ as, f a = g a) : as.filterMapM f = as.filterMapM g := by
  induction as with
  | nil => rfl
  | cons a rest ih =>
    obtain ⟨hfirst, hrest⟩ := List.forall_mem_cons.mp h
    rw [List.filterMapM_cons, List.filterMapM_cons, hfirst, ih hrest]

end FilterMapM

/-- Members that are filtered one by one. -/
theorem filterMap_filter_map {α β γ : Type} (as : List α) (g : α → Option β) (p q : β → Bool)
    (f : β → γ) (r : γ → Bool) :
    as.filterMap (fun a => ((((g a).filter p).filter q).map f).filter r) =
      ((((as.filterMap g).filter p).filter q).map f).filter r := by
  induction as with
  | nil => rfl
  | cons a as ih =>
    cases hg : g a with
    | none => simpa [hg] using ih
    | some b =>
      by_cases hp : p b = true <;> by_cases hq : q b = true <;> by_cases hr : r (f b) = true <;>
        simp only [List.filterMap_cons, hg, Option.filter_some, Option.map_some, Option.map_none,
          Option.filter_none, List.filter_cons, List.map_cons, hp, hq, hr, if_true, ih,
          Bool.false_eq_true, if_false]

/-! ## Lists that are sorted -/

section MergeSort
variable {α : Type} {le : α → α → Bool} {xs ys : List α}

/-- A sorted list is the only one with its members, if the order tells them apart. -/
theorem mergeSort_eq_of_pairwise
    (htrans : ∀ a b c, le a b = true → le b c = true → le a c = true)
    (htotal : ∀ a b, (le a b || le b a) = true)
    (hantisymm : ∀ a b, a ∈ xs → b ∈ ys → le a b = true → le b a = true → a = b)
    (hperm : xs.Perm ys) (hsorted : ys.Pairwise fun a b => le a b = true) :
    xs.mergeSort le = ys := by
  apply List.Perm.eq_of_pairwise _ (List.pairwise_mergeSort htrans htotal xs) hsorted
  · exact (List.mergeSort_perm xs le).trans hperm
  · intro a b ha hb
    exact hantisymm a b (List.mem_mergeSort.mp ha) hb

/-- How a list is ordered before it is sorted does not count. -/
theorem mergeSort_eq_of_perm
    (htrans : ∀ a b c, le a b = true → le b c = true → le a c = true)
    (htotal : ∀ a b, (le a b || le b a) = true)
    (hantisymm : ∀ a b, a ∈ xs → b ∈ ys → le a b = true → le b a = true → a = b)
    (hperm : xs.Perm ys) : xs.mergeSort le = ys.mergeSort le := by
  apply mergeSort_eq_of_pairwise htrans htotal _ (hperm.trans (List.mergeSort_perm ys le).symm)
  · exact List.pairwise_mergeSort htrans htotal ys
  · intro a b ha hb
    exact hantisymm a b ha (List.mem_mergeSort.mp hb)

end MergeSort

namespace Scan
open CodeAtlas.Path FileTree

section Paths
variable {α : Type} (path : α → String)

theorem trans_of_path (a b c : α) (hab : decide (path a ≤ path b) = true)
    (hbc : decide (path b ≤ path c) = true) : decide (path a ≤ path c) = true :=
  decide_eq_true (String.le_trans (of_decide_eq_true hab) (of_decide_eq_true hbc))

theorem total_of_path (a b : α) :
    (decide (path a ≤ path b) || decide (path b ≤ path a)) = true := by
  simpa using String.le_total (path a) (path b)

end Paths

theorem mergeSort_paths {paths found : List String} (hperm : paths.Perm found)
    (hsorted : found.Pairwise (· ≤ ·)) : paths.mergeSort (fun a b => a ≤ b) = found := by
  apply mergeSort_eq_of_pairwise (trans_of_path id) (total_of_path id) _ hperm
  · exact hsorted.imp decide_eq_true
  · intro a b _ _ hab hba
    exact String.le_antisymm (of_decide_eq_true hab) (of_decide_eq_true hba)

/-! ## Visits -/

theorem visitedBefore_total (a b : List String) :
    (visitedBefore a b || visitedBefore b a) = true := by
  fun_induction visitedBefore a b with
  | case1 => rfl
  | case2 => rfl
  | case3 a b => simpa [visitedBefore] using String.le_total a b
  | case4 => rfl
  | case5 => rfl
  | case6 x as b y bs ih => simpa [visitedBefore] using ih
  | case7 a x as b y bs hne =>
    simpa [visitedBefore, hne, Ne.symm hne] using String.le_total a b

theorem visitedBefore_antisymm {a b : List String} (hab : visitedBefore a b = true)
    (hba : visitedBefore b a = true) : a = b := by
  fun_induction visitedBefore a b with
  | case1 b =>
    cases b with
    | nil => rfl
    | cons y bs => cases hba
  | case2 => cases hab
  | case3 a b => rw [String.le_antisymm (of_decide_eq_true hab) (of_decide_eq_true hba)]
  | case4 => cases hba
  | case5 => cases hab
  | case6 x as b y bs ih =>
    simp only [visitedBefore, if_true] at hba
    rw [ih hab hba]
  | case7 a x as b y bs hne =>
    simp only [visitedBefore, if_neg (Ne.symm hne)] at hba
    exact absurd (String.le_antisymm (of_decide_eq_true hab) (of_decide_eq_true hba)) hne

theorem visitedBefore_trans {a b c : List String} (hab : visitedBefore a b = true)
    (hbc : visitedBefore b c = true) : visitedBefore a c = true := by
  fun_induction visitedBefore a b generalizing c with
  | case1 => rfl
  | case2 => cases hab
  | case3 a b =>
    rcases c with _ | ⟨c, _ | ⟨z, cs⟩⟩
    · cases hbc
    · exact decide_eq_true (String.le_trans (of_decide_eq_true hab) (of_decide_eq_true hbc))
    · rfl
  | case4 =>
    rcases c with _ | ⟨c, _ | ⟨z, cs⟩⟩
    · cases hbc
    · cases hbc
    · rfl
  | case5 => cases hab
  | case6 x as b y bs ih =>
    rcases c with _ | ⟨c, _ | ⟨z, cs⟩⟩
    · cases hbc
    · cases hbc
    · simp only [visitedBefore] at hbc ⊢
      split_ifs at hbc ⊢ with hc
      · exact ih hab hbc
      · exact hbc
  | case7 a x as b y bs hne =>
    rcases c with _ | ⟨c, _ | ⟨z, cs⟩⟩
    · cases hbc
    · cases hbc
    · have hle : b ≤ c := by
        simp only [visitedBefore] at hbc
        split_ifs at hbc with hc
        · exact hc ▸ String.le_refl b
        · exact of_decide_eq_true hbc
      have hne' : a ≠ c := by
        rintro rfl
        exact hne (String.le_antisymm (of_decide_eq_true hab) hle)
      simp only [visitedBefore, if_neg hne']
      exact decide_eq_true (String.le_trans (of_decide_eq_true hab) hle)

/-- The entries below the directory at a path, each of them once, in the order of visits. -/
structure IsVisit (tree : FileTree) (root : String) (entries : List (List String × Entry)) :
    Prop where
  perm : (entriesBelow tree root).Perm entries
  sorted : entries.Pairwise fun a b => visitedBefore a.1 b.1 = true
  nodup : (entries.map Prod.fst).Nodup

instance (tree : FileTree) (root : String) (entries : List (List String × Entry)) :
    Decidable (IsVisit tree root entries) :=
  decidable_of_iff ((entriesBelow tree root).Perm entries ∧
      entries.Pairwise (fun a b => visitedBefore a.1 b.1 = true) ∧ (entries.map Prod.fst).Nodup)
    ⟨fun h => ⟨h.1, h.2.1, h.2.2⟩, fun h => ⟨h.perm, h.sorted, h.nodup⟩⟩

section Visited
variable {tree : FileTree} {root : String} {entries : List (List String × Entry)}

theorem visited_perm (tree : FileTree) (root : String) :
    (visited tree root).Perm (entriesBelow tree root) := List.mergeSort_perm _ _

theorem mem_visited {entry : List String × Entry} :
    entry ∈ visited tree root ↔ entry ∈ entriesBelow tree root := (visited_perm tree root).mem_iff

/-- The order of visits is the only one of its kind, since the names of an entry tell it from
all others. -/
theorem visited_eq_of_perm
    (hnames : ∀ a ∈ entriesBelow tree root, ∀ b ∈ entries, a.1 = b.1 → a = b)
    (hperm : (entriesBelow tree root).Perm entries) :
    visited tree root = entries.mergeSort fun a b => visitedBefore a.1 b.1 := by
  apply mergeSort_eq_of_perm
  · exact fun a b c => visitedBefore_trans
  · exact fun a b => visitedBefore_total a.1 b.1
  · exact fun a b ha hb hab hba => hnames a ha b hb (visitedBefore_antisymm hab hba)
  · exact hperm

theorem IsVisit.visited_eq (h : IsVisit tree root entries) : visited tree root = entries := by
  apply mergeSort_eq_of_pairwise _ _ _ h.perm h.sorted
  · exact fun a b c => visitedBefore_trans
  · exact fun a b => visitedBefore_total a.1 b.1
  · intro a b ha hb hab hba
    exact List.inj_on_of_nodup_map h.nodup (h.perm.mem_iff.mp ha) hb
      (visitedBefore_antisymm hab hba)

theorem regularFiles_perm (tree : FileTree) (root : String) :
    (regularFiles tree root).Perm ((entriesBelow tree root).filterMap fileNames?) :=
  List.mergeSort_perm _ _

theorem ascending_regularFiles (tree : FileTree) (root : String) :
    (regularFiles tree root).Pairwise fun a b => ofPieces a ≤ ofPieces b :=
  (List.pairwise_mergeSort (trans_of_path ofPieces) (total_of_path ofPieces) _).imp
    of_decide_eq_true

theorem regularFiles_eq_of_pairwise {names : List (List String)}
    (hperm : ((entriesBelow tree root).filterMap fileNames?).Perm names)
    (hsorted : names.Pairwise fun a b => ofPieces a ≤ ofPieces b)
    (hpaths : (names.map ofPieces).Nodup) : regularFiles tree root = names := by
  apply mergeSort_eq_of_pairwise (trans_of_path ofPieces) (total_of_path ofPieces) _ hperm
  · exact hsorted.imp decide_eq_true
  · intro a b ha hb hab hba
    have heq := String.le_antisymm (of_decide_eq_true hab) (of_decide_eq_true hba)
    exact List.inj_on_of_nodup_map hpaths (hperm.mem_iff.mp ha) hb heq

end Visited

/-! ## Answers -/

section Answers
variable {tree : FileTree} {root : String} {selection : Selection} {files : List IgnoreFile}

theorem sourceFiles_eq_map (hfiles : ignoreFiles tree root selection = .ok files) :
    sourceFiles tree root selection =
      ((visited tree root).filterMapM (wanted? tree root selection files)).map fun paths =>
        paths.mergeSort fun a b => a ≤ b := by
  rw [sourceFiles, hfiles]
  change ((visited tree root).filterMapM (wanted? tree root selection files) >>= _) = _
  cases (visited tree root).filterMapM (wanted? tree root selection files) <;> rfl

theorem sourceFiles_eq_of_isVisit {entries : List (List String × Entry)}
    (h : IsVisit tree root entries) : sourceFiles tree root selection =
      (ignoreFiles tree root selection >>= fun files =>
        entries.filterMapM (wanted? tree root selection files)).map fun paths =>
          paths.mergeSort fun a b => a ≤ b := by
  cases hfiles : ignoreFiles tree root selection with
  | error fault =>
    rw [sourceFiles, hfiles]
    rfl
  | ok files =>
    rw [sourceFiles_eq_map hfiles, h.visited_eq]
    rfl

/-- The answer is what the visits yield, in ascending order. -/
theorem IsVisit.sourceFiles_eq_ok {entries : List (List String × Entry)} {paths found : List String}
    (h : IsVisit tree root entries)
    (hpaths : (ignoreFiles tree root selection >>= fun files =>
      entries.filterMapM (wanted? tree root selection files)) = .ok paths)
    (hperm : paths.Perm found) (hsorted : found.Pairwise (· ≤ ·)) :
    sourceFiles tree root selection = .ok found := by
  rw [sourceFiles_eq_of_isVisit h, hpaths]
  exact congrArg Except.ok (mergeSort_paths hperm hsorted)

/-- The fault is that of the ignore files or the first one that the visits meet. -/
theorem IsVisit.sourceFiles_eq_error {entries : List (List String × Entry)} {fault : Fault}
    (h : IsVisit tree root entries)
    (hfault : (ignoreFiles tree root selection >>= fun files =>
      entries.filterMapM (wanted? tree root selection files)) = .error fault) :
    sourceFiles tree root selection = .error fault := by
  rw [sourceFiles_eq_of_isVisit h, hfault]
  rfl

end Answers

end Scan

end CodeAtlas
