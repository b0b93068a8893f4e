import CodeAtlas.FileTree.Walk
import CodeAtlas.Proofs.Text.Path
import Mathlib.Data.List.Nodup

/-! # Trees that agree below a directory

Two trees may have the same entries below a directory and differ elsewhere. Then the same is below
the directory in both, and a path that leads into the directory and passes no link there leads to
the same file. Only a link can lead out of the directory again. The directory need not be at the
same location in both trees.
-/
namespace CodeAtlas.FileTree
open CodeAtlas.Path

/-! ## Well-formed trees -/

/-- A name that a directory can hold. -/
structure IsEntryName (name : String) : Prop extends IsComponent name where
  ne_dots : name ≠ ".."

/-- Every location has at most one entry, and names lead to it. -/
structure IsWellFormed (tree : FileTree) : Prop where
  nodup : (tree.entries.map Prod.fst).Nodup
  ne_nil : ∀ x ∈ tree.entries, x.1 ≠ []
  isEntryName : ∀ x ∈ tree.entries, ∀ name ∈ x.1, IsEntryName name

instance (name : String) : Decidable (IsEntryName name) :=
  decidable_of_iff ((name ≠ "" ∧ name ≠ "." ∧ name.toList.contains '/' = false) ∧ name ≠ "..")
    ⟨fun h => ⟨⟨h.1.1, h.1.2.1, by simpa using h.1.2.2⟩, h.2⟩,
      fun h => ⟨⟨h.ne_empty, h.ne_dot, by simpa using h.slash⟩, h.ne_dots⟩⟩

instance (tree : FileTree) : Decidable tree.IsWellFormed :=
  decidable_of_iff ((tree.entries.map Prod.fst).Nodup ∧ (∀ x ∈ tree.entries, x.1 ≠ []) ∧
      ∀ x ∈ tree.entries, ∀ name ∈ x.1, IsEntryName name)
    ⟨fun h => ⟨h.1, h.2.1, h.2.2⟩, fun h => ⟨h.nodup, h.ne_nil, h.isEntryName⟩⟩

theorem lookup_eq_some_iff_mem {α : Type} {entries : List (Location × α)}
    (h : (entries.map Prod.fst).Nodup) {l : Location} {e : α} :
    entries.lookup l = some e ↔ (l, e) ∈ entries := by
  induction entries with
  | nil => simp
  | cons x rest ih =>
    obtain ⟨l', e'⟩ := x
    obtain ⟨hfirst, hrest⟩ := List.nodup_cons.mp h
    by_cases hl : l = l'
    · subst hl
      have hother : (l, e) ∉ rest := fun hmem => hfirst (List.mem_map.mpr ⟨(l, e), hmem, rfl⟩)
      simp [hother, eq_comm]
    · have hbeq : (l == l') = false := by simpa using hl
      simp [List.lookup_cons, hbeq, hl, ih hrest]

theorem opensTo_cons_cons (tree : FileTree) (l : Location) (name next : String)
    (rest : List String) : tree.opensTo l (name :: next :: rest) =
      (tree.get? (l ++ [name]) == some .directory && tree.opensTo (l ++ [name]) (next :: rest)) :=
      rfl

section WellFormed
variable {tree : FileTree} {l : Location} {names : List String} {e : Entry}

theorem IsWellFormed.get?_eq_some_iff (h : tree.IsWellFormed) (hl : l ≠ []) :
    tree.get? l = some e ↔ (l, e) ∈ tree.entries := by
  have hempty : l.isEmpty = false := by simpa using hl
  rw [get?, hempty, if_neg (by decide), lookup_eq_some_iff_mem h.nodup]

theorem namesBelow?_eq_some_iff {l' : Location} : tree.namesBelow? l l' = some names ↔
    l' = l ++ names ∧ names ≠ [] ∧ tree.opensTo l names = true := by
  unfold namesBelow?
  by_cases hbelow : l <+: l'
  · obtain ⟨rest, rfl⟩ := hbelow
    rw [if_pos (List.isPrefixOf_iff_prefix.mpr (List.prefix_append l rest)), List.drop_left,
      List.append_cancel_left_eq]
    cases rest with
    | nil =>
      refine iff_of_false (by simp) ?_
      rintro ⟨rfl, hne, -⟩
      exact hne rfl
    | cons name rest =>
      by_cases hopens : tree.opensTo l (name :: rest) = true
      · simp only [hopens, if_true, Option.some.injEq]
        constructor
        · rintro rfl
          exact ⟨rfl, List.cons_ne_nil name rest, hopens⟩
        · exact fun h => h.1
      · simp only [hopens, if_false, Bool.false_eq_true, false_iff, reduceCtorEq]
        rintro ⟨rfl, -, h⟩
        exact hopens h
  · rw [if_neg (mt List.isPrefixOf_iff_prefix.mp hbelow)]
    refine iff_of_false (by simp) fun h => hbelow ?_
    exact ⟨names, h.1.symm⟩

/-- What is below a directory: the entries that directories lead to. -/
theorem IsWellFormed.mem_below_iff (h : tree.IsWellFormed) : (names, e) ∈ tree.below l ↔
    names ≠ [] ∧ tree.opensTo l names = true ∧ tree.get? (l ++ names) = some e := by
  simp only [below, List.mem_filterMap, Prod.exists, Option.map_eq_some_iff,
    namesBelow?_eq_some_iff, Prod.mk.injEq]
  constructor
  · rintro ⟨l', e', hmem, names', ⟨rfl, hne, hopens⟩, rfl, rfl⟩
    exact ⟨hne, hopens, (h.get?_eq_some_iff (h.ne_nil _ hmem)).mpr hmem⟩
  · rintro ⟨hne, hopens, hget⟩
    have hne' : l ++ names ≠ [] := List.append_ne_nil_of_right_ne_nil l hne
    exact ⟨l ++ names, e, (h.get?_eq_some_iff hne').mp hget, names, ⟨rfl, hne, hopens⟩, rfl, rfl⟩

theorem IsWellFormed.nodup_below (h : tree.IsWellFormed) (l : Location) : (tree.below l).Nodup := by
  refine h.nodup.of_map.filterMap ?_
  rintro ⟨l₁, e₁⟩ ⟨l₂, e₂⟩ ⟨names, e⟩ h₁ h₂
  obtain ⟨names₁, hnames₁, heq₁⟩ := Option.map_eq_some_iff.mp h₁
  obtain ⟨names₂, hnames₂, heq₂⟩ := Option.map_eq_some_iff.mp h₂
  obtain ⟨rfl, rfl⟩ := Prod.mk.inj heq₁
  obtain ⟨rfl, rfl⟩ := Prod.mk.inj heq₂
  rw [(namesBelow?_eq_some_iff.mp hnames₁).1, (namesBelow?_eq_some_iff.mp hnames₂).1]

theorem IsWellFormed.isEntryName_of_mem_below (h : tree.IsWellFormed)
    (hmem : (names, e) ∈ tree.below l) {name : String} (hname : name ∈ names) :
    IsEntryName name := by
  obtain ⟨hne, -, hget⟩ := h.mem_below_iff.mp hmem
  have hentry := (h.get?_eq_some_iff (List.append_ne_nil_of_right_ne_nil l hne)).mp hget
  exact h.isEntryName _ hentry name (List.mem_append_right l hname)

end WellFormed

/-! ## Agreement -/

/-- The same stands at and below a location of one tree as at and below a location of another. -/
def AgreeBelow (tree : FileTree) (l : Location) (tree' : FileTree) (l' : Location) : Prop :=
  ∀ names, tree.get? (l ++ names) = tree'.get? (l' ++ names)

/-- Whether a link lies on the way of names from a location on. -/
def passesLink (tree : FileTree) : (l : Location) → (names : List String) → Bool
  | _, [] => false
  | l, name :: rest =>
    (match tree.get? (l ++ [name]) with
      | some (.link _) => true
      | _ => false) || passesLink tree (l ++ [name]) rest

section Agreement
variable {tree tree' : FileTree} {l l' : Location} {names : List String}

/-- Trees agree below a location if they have the same entries there. -/
theorem agreeBelow_of_entries (hl : l ≠ []) (htree : tree.IsWellFormed)
    (htree' : tree'.IsWellFormed) (h : ∀ x ∈ tree.entries, l <+: x.1 → x ∈ tree'.entries)
    (h' : ∀ x ∈ tree'.entries, l <+: x.1 → x ∈ tree.entries) : AgreeBelow tree l tree' l := by
  intro names
  have hne : l ++ names ≠ [] := List.append_ne_nil_of_left_ne_nil hl names
  ext e
  rw [htree.get?_eq_some_iff hne, htree'.get?_eq_some_iff hne]
  exact ⟨fun hmem => h _ hmem (List.prefix_append l names),
    fun hmem => h' _ hmem (List.prefix_append l names)⟩

theorem AgreeBelow.step (h : AgreeBelow tree l tree' l') (name : String) :
    AgreeBelow tree (l ++ [name]) tree' (l' ++ [name]) := by
  intro names
  simpa using h (name :: names)

theorem AgreeBelow.get?_eq (h : AgreeBelow tree l tree' l') :
    tree.get? l = tree'.get? l' := by simpa using h []

theorem AgreeBelow.opensTo_eq (h : AgreeBelow tree l tree' l') (names : List String) :
    tree.opensTo l names = tree'.opensTo l' names := by
  induction names generalizing l l' with
  | nil => rfl
  | cons name rest ih =>
    cases rest with
    | nil => rfl
    | cons next rest =>
      rw [opensTo_cons_cons, opensTo_cons_cons, (h.step name).get?_eq, ih (h.step name)]

/-- The same is below the two locations, in whichever order the trees list it. -/
theorem AgreeBelow.below_perm (h : AgreeBelow tree l tree' l') (htree : tree.IsWellFormed)
    (htree' : tree'.IsWellFormed) : (tree.below l).Perm (tree'.below l') := by
  rw [List.perm_ext_iff_of_nodup (htree.nodup_below l) (htree'.nodup_below l')]
  rintro ⟨names, e⟩
  rw [htree.mem_below_iff, htree'.mem_below_iff, h.opensTo_eq, h names]

/-- A directory that can be reached opens to every name in it. -/
theorem opensTo_concat {name : String} (hopens : tree.opensTo l names = true)
    (hlast : names = [] ∨ tree.get? (l ++ names) = some .directory) :
    tree.opensTo l (names ++ [name]) = true := by
  induction names generalizing l with
  | nil => rfl
  | cons first rest ih =>
    replace hlast := hlast.resolve_left (List.cons_ne_nil first rest)
    cases rest with
    | nil =>
      rw [List.singleton_append, opensTo_cons_cons, hlast]
      rfl
    | cons next rest =>
      obtain ⟨hdirectory, hrest⟩ := Bool.and_eq_true_iff.mp hopens
      rw [List.cons_append, List.cons_append, opensTo_cons_cons, hdirectory, Bool.true_and]
      exact ih hrest (.inr (by simpa using hlast))

/-- Directories lead to a file or a directory without a link. -/
theorem passesLink_of_opensTo (hopens : tree.opensTo l names = true)
    (hlast : ∀ target, tree.get? (l ++ names) ≠ some (.link target)) :
    tree.passesLink l names = false := by
  induction names generalizing l with
  | nil => rfl
  | cons name rest ih =>
    cases rest with
    | nil =>
      cases hget : tree.get? (l ++ [name]) with
      | none => simp [passesLink, hget]
      | some e =>
        cases e with
        | link target => exact absurd hget (hlast target)
        | file content => simp [passesLink, hget]
        | directory => simp [passesLink, hget]
    | cons next rest =>
      obtain ⟨hdirectory, hrest⟩ := Bool.and_eq_true_iff.mp hopens
      have hget : tree.get? (l ++ [name]) = some .directory := by simpa using hdirectory
      rw [passesLink, hget, Bool.false_or]
      exact ih hrest (by simpa using hlast)

end Agreement

/-! ## Walks -/

section Walk
variable {tree tree' : FileTree} {l l' : Location} {pieces names : List String}

/-- A walk that comes to its end goes on from there, either with the same links left or behind the
last link that was left to `follow`. -/
theorem walkWith_append {follow : Location → List String → Except Fault Location}
    (h : tree.walkWith follow l pieces = .ok l') :
    (∀ rest, tree.walkWith follow l (pieces ++ rest) = tree.walkWith follow l' rest) ∨
      ∃ l₁ pieces₁, follow l₁ pieces₁ = .ok l' ∧
        ∀ rest, tree.walkWith follow l (pieces ++ rest) = follow l₁ (pieces₁ ++ rest) := by
  induction pieces generalizing l with
  | nil =>
    obtain rfl := Except.ok.inj h
    exact .inl fun rest => rfl
  | cons name pieces ih =>
    simp only [List.cons_append, walkWith] at h ⊢
    split_ifs at h ⊢ with hdirectory hempty hdots hlong
    · exact ih h
    · exact ih h
    · cases hget : tree.get? (l ++ [name]) with
      | none => simp [hget] at h
      | some e =>
        cases e with
        | link target =>
          simp only [hget] at h
          exact .inr ⟨_, _, h, fun rest => by simp⟩
        | file content =>
          simp only [hget] at h
          exact ih h
        | directory =>
          simp only [hget] at h
          exact ih h

/-- A path that goes on behind where it leads to is walked from there with the links that
are left. -/
theorem exists_walk_append {links : Nat} (h : tree.walk links l pieces = .ok l') :
    ∃ left, ∀ rest, tree.walk links l (pieces ++ rest) = tree.walk left l' rest := by
  induction links generalizing l pieces with
  | zero =>
    rcases walkWith_append h with happend | ⟨l₁, pieces₁, hfollow, -⟩
    · exact ⟨0, happend⟩
    · cases hfollow
  | succ links ih =>
    rcases walkWith_append h with happend | ⟨l₁, pieces₁, hfollow, happend⟩
    · exact ⟨links + 1, happend⟩
    · obtain ⟨left, hleft⟩ := ih hfollow
      exact ⟨left, fun rest => (happend rest).trans (hleft rest)⟩

theorem exists_walkWith (tree : FileTree) (links : Nat) :
    ∃ follow, tree.walk links = tree.walkWith follow := by
  cases links with
  | zero => exact ⟨_, rfl⟩
  | succ links => exact ⟨_, rfl⟩

theorem walk_of_locate {path : String} (h : tree.locate path = .ok l) :
    tree.walk maxLinks [] (components path) = .ok l := by
  unfold locate at h
  split_ifs at h
  exact h

/-- Two walks end alike: with the same fault, or at the same names from two locations on. -/
inductive EndAlike : (l l' : Location) → (names : List String) →
    (found found' : Except Fault Location) → Prop
  | fault {l l' : Location} {names : List String} (f : Fault) :
      EndAlike l l' names (.error f) (.error f)
  | location (l l' : Location) (names : List String) :
      EndAlike l l' names (.ok (l ++ names)) (.ok (l' ++ names))

theorem EndAlike.of_step {name : String} {found found' : Except Fault Location}
    (h : EndAlike (l ++ [name]) (l' ++ [name]) names found found') :
    EndAlike l l' (name :: names) found found' := by
  cases h with
  | fault f => exact .fault f
  | location => simpa using EndAlike.location l l' (name :: names)

/-- Below the locations where two trees agree, walks without links end alike. -/
theorem AgreeBelow.endAlike_walkWith
    {follow follow' : Location → List String → Except Fault Location}
    (hagree : AgreeBelow tree l tree' l') (hnames : ∀ name ∈ names, IsEntryName name)
    (hlink : tree.passesLink l names = false) :
    EndAlike l l' names (tree.walkWith follow l names) (tree'.walkWith follow' l' names) := by
  induction names generalizing l l' with
  | nil => simpa [walkWith] using EndAlike.location l l' []
  | cons name rest ih =>
    obtain ⟨hname, hrest⟩ := List.forall_mem_cons.mp hnames
    obtain ⟨hhere, hlater⟩ := Bool.or_eq_false_iff.mp hlink
    have hstep := ih (hagree.step name) hrest hlater
    have hdot : (name == "" || name == ".") = false := by simp [hname.ne_empty, hname.ne_dot]
    have hdots : (name == "..") = false := by simpa using hname.ne_dots
    simp only [walkWith, ← hagree.get?_eq, ← (hagree.step name).get?_eq, hdot, hdots,
      Bool.false_eq_true, if_false]
    split_ifs with hdirectory hlong
    · exact .fault _
    · exact .fault _
    · cases hget : tree.get? (l ++ [name]) with
      | none => exact .fault _
      | some e =>
        cases e with
        | link target => simp [hget] at hhere
        | file content => exact hstep.of_step
        | directory => exact hstep.of_step

variable {root path : String}

/-- Paths that lead into the two directories and pass no link from there on. -/
theorem AgreeBelow.endAlike_locate (hagree : AgreeBelow tree l tree' l')
    (hroot : tree.locate root = .ok l) (hroot' : tree'.locate root = .ok l')
    (hpath : components path = components root ++ names) (hnames : ∀ name ∈ names, IsEntryName name)
    (hlink : tree.passesLink l names = false) :
    EndAlike l l' names (tree.locate path) (tree'.locate path) := by
  obtain ⟨left, hleft⟩ := exists_walk_append (walk_of_locate hroot)
  obtain ⟨left', hleft'⟩ := exists_walk_append (walk_of_locate hroot')
  obtain ⟨follow, hfollow⟩ := exists_walkWith tree left
  obtain ⟨follow', hfollow'⟩ := exists_walkWith tree' left'
  unfold locate
  split_ifs with hnul hlong
  · exact .fault _
  · exact .fault _
  · rw [hpath, hleft, hleft', hfollow, hfollow']
    exact hagree.endAlike_walkWith hnames hlink

theorem EndAlike.isTooLong_eq (h : EndAlike l l' names (tree.locate path) (tree'.locate path)) :
    tree.isTooLong path = tree'.isTooLong path := by
  unfold isTooLong
  generalize tree.locate path = found, tree'.locate path = found' at h ⊢
  cases h with
  | fault f => rfl
  | location => rfl

theorem AgreeBelow.read_eq (hagree : AgreeBelow tree l tree' l')
    (h : EndAlike l l' names (tree.locate path) (tree'.locate path)) :
    tree.read path = tree'.read path := by
  have hlookup : tree.lookup path = tree'.lookup path := by
    unfold lookup
    generalize tree.locate path = found, tree'.locate path = found' at h ⊢
    cases h with
    | fault f => rfl
    | location => simp only [bind, Except.bind, hagree names]
  rw [read, read, hlookup]

end Walk

end CodeAtlas.FileTree
