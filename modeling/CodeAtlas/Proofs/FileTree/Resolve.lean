import CodeAtlas.Proofs.FileTree.Agreement

/-! # Opening and resolving

A path that can be opened is resolved to where it leads. Opening puts the target of a link in front
of what is left of the path and gives up after so many links, while resolving works out the target
on its own and gives up where a link comes inside of itself. That cannot happen to a link that can
be opened, since working out its target takes a fixed number of links.
-/
namespace CodeAtlas.FileTree
open CodeAtlas.Path

/-- A name that leads on from a directory. -/
structure IsStep (name : String) : Prop where
  ne_empty : name ≠ ""
  ne_dot : name ≠ "."
  ne_dots : name ≠ ".."

theorem IsEntryName.isStep {name : String} (h : IsEntryName name) : IsStep name :=
  ⟨h.ne_empty, h.ne_dot, h.ne_dots⟩

/-- The directory from which the target of a link is followed, given the one that the link is in. -/
def targetStart (l : Location) (target : String) : Location := if isAbsolute target then [] else l

/-- The pieces of a path lead from a location to another one, with so many links on the way, those
inside of other links included. -/
inductive LeadsTo (tree : FileTree) : (links : Nat) → (l : Location) → (pieces : List String) →
    (l' : Location) → Prop
  | done (l : Location) : LeadsTo tree 0 l [] l
  | stay {n : Nat} {l l' : Location} {name : String} {rest : List String}
      (hname : name = "" ∨ name = ".")
    (hrest : LeadsTo tree n l rest l') : LeadsTo tree n l (name :: rest) l'
  | up {n : Nat} {l l' : Location} {rest : List String}
      (hrest : LeadsTo tree n l.dropLast rest l') :
    LeadsTo tree n l (".." :: rest) l'
  | entry {n : Nat} {l l' : Location} {name : String} {rest : List String} (hname : IsStep name)
    (hget : ∀ target, tree.get? (l ++ [name]) ≠ some (.link target))
    (hrest : LeadsTo tree n (l ++ [name]) rest l') : LeadsTo tree n l (name :: rest) l'
  | link {m n : Nat} {l l₁ l' : Location} {name target : String} {rest : List String}
      (hname : IsStep name)
    (hget : tree.get? (l ++ [name]) = some (.link target))
    (htarget : LeadsTo tree m (targetStart l target) (pieces target) l₁)
    (hrest : LeadsTo tree n l₁ rest l') : LeadsTo tree (m + n + 1) l (name :: rest) l'

section LeadsTo
variable {tree : FileTree} {m n : Nat} {l l₁ l' l'' : Location} {names front rest : List String}

namespace LeadsTo

theorem append (h : LeadsTo tree m l front l₁) (hrest : LeadsTo tree n l₁ rest l') :
    LeadsTo tree (m + n) l (front ++ rest) l' := by
  induction h with
  | done l => rwa [Nat.zero_add]
  | stay hname _ ih => exact .stay hname (ih hrest)
  | up _ ih => exact .up (ih hrest)
  | entry hname hget _ ih => exact .entry hname hget (ih hrest)
  | @link m k _ _ _ _ _ _ hname hget htarget _ _ ih =>
    have hcount : m + k + 1 + n = m + (k + n) + 1 := by omega
    rw [hcount]
    exact .link hname hget htarget (ih hrest)

theorem split (h : LeadsTo tree n l (front ++ rest) l') :
    ∃ m k l₁, LeadsTo tree m l front l₁ ∧ LeadsTo tree k l₁ rest l' := by
  induction front generalizing l n with
  | nil => exact ⟨0, n, l, .done l, h⟩
  | cons name front ih =>
    rw [List.cons_append] at h
    cases h with
    | stay hname h =>
      obtain ⟨m, k, l₁, hfront, hrest⟩ := ih h
      exact ⟨m, k, l₁, .stay hname hfront, hrest⟩
    | up h =>
      obtain ⟨m, k, l₁, hfront, hrest⟩ := ih h
      exact ⟨m, k, l₁, .up hfront, hrest⟩
    | entry hname hget h =>
      obtain ⟨m, k, l₁, hfront, hrest⟩ := ih h
      exact ⟨m, k, l₁, .entry hname hget hfront, hrest⟩
    | link hname hget htarget h =>
      obtain ⟨m, k, l₁, hfront, hrest⟩ := ih h
      exact ⟨_, k, l₁, .link hname hget htarget hfront, hrest⟩

/-- A path leads to one location, with one number of links on the way. -/
theorem unique (h : LeadsTo tree m l names l') (h' : LeadsTo tree n l names l'') :
    m = n ∧ l' = l'' := by
  induction h generalizing n l'' with
  | done l =>
    cases h'
    exact ⟨rfl, rfl⟩
  | stay hname _ ih =>
    cases h' with
    | stay _ h' => exact ih h'
    | up => simp at hname
    | entry hstep => exact absurd hname (not_or.mpr ⟨hstep.ne_empty, hstep.ne_dot⟩)
    | link hstep => exact absurd hname (not_or.mpr ⟨hstep.ne_empty, hstep.ne_dot⟩)
  | up _ ih =>
    cases h' with
    | stay hname => simp at hname
    | up h' => exact ih h'
    | entry hstep => exact absurd rfl hstep.ne_dots
    | link hstep => exact absurd rfl hstep.ne_dots
  | entry hstep hget _ ih =>
    cases h' with
    | stay hname => exact absurd hname (not_or.mpr ⟨hstep.ne_empty, hstep.ne_dot⟩)
    | up => exact absurd rfl hstep.ne_dots
    | entry _ _ h' => exact ih h'
    | link _ hlink => exact absurd hlink (hget _)
  | link hstep hget _ _ ihtarget ihrest =>
    cases h' with
    | stay hname => exact absurd hname (not_or.mpr ⟨hstep.ne_empty, hstep.ne_dot⟩)
    | up => exact absurd rfl hstep.ne_dots
    | entry _ hplain => exact absurd hget (hplain _)
    | link _ hlink htarget h' =>
      obtain rfl := Entry.link.inj (Option.some.inj (hget.symm.trans hlink))
      obtain ⟨rfl, rfl⟩ := ihtarget htarget
      obtain ⟨rfl, rfl⟩ := ihrest h'
      exact ⟨rfl, rfl⟩

end LeadsTo

/-- Names without a link among them lead down. -/
theorem leadsTo_of_passesLink (hnames : ∀ name ∈ names, IsEntryName name)
    (hlink : tree.passesLink l names = false) : LeadsTo tree 0 l names (l ++ names) := by
  induction names generalizing l with
  | nil => simpa using LeadsTo.done l
  | cons name rest ih =>
    obtain ⟨hname, hrest⟩ := List.forall_mem_cons.mp hnames
    obtain ⟨hhere, hlater⟩ := Bool.or_eq_false_iff.mp hlink
    have hget (target : String) : tree.get? (l ++ [name]) ≠ some (.link target) := fun hget => by
        simp [hget] at hhere
    have hstep := ih (l := l ++ [name]) hrest hlater
    rw [List.append_assoc, List.singleton_append] at hstep
    exact .entry hname.isStep hget hstep

end LeadsTo

/-! ## Opening -/

section Open
variable {tree : FileTree} {l l' : Location} {names : List String}

theorem exists_leadsTo_of_walkWith {follow : Location → List String → Except Fault Location}
    (hfollow : ∀ l names l', follow l names = .ok l' → ∃ n, LeadsTo tree n l names l')
    (h : tree.walkWith follow l names = .ok l') : ∃ n, LeadsTo tree n l names l' := by
  induction names generalizing l with
  | nil =>
    obtain rfl := Except.ok.inj h
    exact ⟨0, .done l⟩
  | cons name rest ih =>
    rw [walkWith] at h
    split_ifs at h with hdirectory hempty hdots hlong
    · obtain ⟨n, hrest⟩ := ih h
      exact ⟨n, .stay (by simpa using hempty) hrest⟩
    · obtain ⟨n, hrest⟩ := ih h
      obtain rfl : name = ".." := by simpa using hdots
      exact ⟨n, .up hrest⟩
    · have hstep : IsStep name := by
        simp only [Bool.or_eq_true, beq_iff_eq, not_or] at hempty hdots
        exact ⟨hempty.1, hempty.2, hdots⟩
      cases hget : tree.get? (l ++ [name]) with
      | none => simp [hget] at h
      | some e =>
        rw [hget] at h
        cases e with
        | link target =>
          obtain ⟨n, hleads⟩ := hfollow _ _ _ h
          obtain ⟨m, k, l₁, htarget, hrest⟩ := hleads.split
          exact ⟨_, .link hstep hget htarget hrest⟩
        | file content =>
          obtain ⟨n, hrest⟩ := ih h
          exact ⟨n, .entry hstep (by simp [hget]) hrest⟩
        | directory =>
          obtain ⟨n, hrest⟩ := ih h
          exact ⟨n, .entry hstep (by simp [hget]) hrest⟩

theorem exists_leadsTo_of_walk {links : Nat} (h : tree.walk links l names = .ok l') :
    ∃ n, LeadsTo tree n l names l' := by
  induction links generalizing l names l' with
  | zero => exact exists_leadsTo_of_walkWith (fun _ _ _ hfollow => by cases hfollow) h
  | succ links ih => exact exists_leadsTo_of_walkWith (fun _ _ _ => ih) h

end Open

/-! ## Resolving -/

section Resolve
variable {tree : FileTree}
  {follow : List Location → Location → List String → Except String Location}
  {active : List Location} {l : Location} {name target : String} {rest : List String}

theorem resolveWith_stay (hname : name = "" ∨ name = ".") :
    tree.resolveWith follow active l (name :: rest) = tree.resolveWith follow active l rest := by
  rw [resolveWith, if_pos (by simpa using hname)]

theorem resolveWith_up :
    tree.resolveWith follow active l (".." :: rest) = tree.resolveWith follow active
      l.dropLast rest := rfl

theorem resolveWith_step (hname : IsStep name) : tree.resolveWith follow active l (name :: rest) =
    match tree.get? (l ++ [name]) with
    | some (.link target) =>
      if active.contains (l ++ [name]) then .error
        (join (Location.path (l ++ [name])) (ofPieces rest))
      else match follow ((l ++ [name]) :: active) (targetStart l target) (pieces target) with
        | .ok l => tree.resolveWith follow active l rest
        | .error path => .error (join path (ofPieces rest))
    | _ => tree.resolveWith follow active (l ++ [name]) rest := by
  rw [resolveWith, if_neg (by simp [hname.ne_empty, hname.ne_dot]),
    if_neg (by simp [hname.ne_dots])]
  rfl

theorem resolveWith_entry (hname : IsStep name)
    (hget : ∀ target, tree.get? (l ++ [name]) ≠ some (.link target)) :
    tree.resolveWith follow active l (name :: rest) = tree.resolveWith follow active
    (l ++ [name]) rest := by
  rw [resolveWith_step hname]
  split
  next target hlink => exact absurd hlink (hget target)
  next => rfl

theorem resolveWith_link {l₁ : Location} (hname : IsStep name)
    (hget : tree.get? (l ++ [name]) = some (.link target)) (hactive : l ++ [name] ∉ active)
    (hfollow : follow ((l ++ [name]) :: active) (targetStart l target) (pieces target) = .ok l₁) :
    tree.resolveWith follow active l (name :: rest) = tree.resolveWith follow active l₁ rest := by
  rw [resolveWith_step hname, hget]
  simp only [List.contains_iff_mem, hactive, if_false, hfollow]

theorem mem_entries_of_get? {e : Entry} (hne : l ≠ []) (h : tree.get? l = some e) :
    l ∈ tree.entries.map Prod.fst := by
  rw [get?, if_neg (by simpa using hne)] at h
  obtain ⟨front, back, hentries, -⟩ := List.lookup_eq_some_iff.mp h
  simp [hentries]

/-- Following the link at a location takes no fewer links than the given number. -/
def TakesAtLeast (tree : FileTree) (n : Nat) (place : Location) : Prop :=
  ∀ l name target m l₁, place = l ++ [name] → tree.get? place = some (.link target) →
    LeadsTo tree m (targetStart l target) (pieces target) l₁ → n ≤ m

theorem TakesAtLeast.mono {m n : Nat} {place : Location} (h : tree.TakesAtLeast n place)
    (hle : m ≤ n) : tree.TakesAtLeast m place := fun l name target k l₁ hplace hget hleads =>
  hle.trans (h l name target k l₁ hplace hget hleads)

/-- A link takes as many links as its target does. -/
theorem LeadsTo.takesAtLeast {m : Nat} {l₁ : Location}
    (hget : tree.get? (l ++ [name]) = some (.link target))
    (h : LeadsTo tree m (targetStart l target) (pieces target) l₁) :
    tree.TakesAtLeast m (l ++ [name]) := by
  intro k name' target' count l₂ hplace hlink hleads
  obtain ⟨rfl, -⟩ := List.append_inj' hplace rfl
  obtain rfl := Entry.link.inj (Option.some.inj (hget.symm.trans hlink))
  exact (h.unique hleads).1.le

theorem exists_resolveWith (tree : FileTree) (depth : Nat) :
    ∃ follow, tree.resolveFrom depth = tree.resolveWith follow := by
  cases depth with
  | zero => exact ⟨_, rfl⟩
  | succ depth => exact ⟨_, rfl⟩

/-- What is left of a path is worked out to where it leads, if none of the links that are being
worked out can come on the way. As they are all different, the depth is enough for the links inside
of one another. -/
theorem LeadsTo.resolveFrom_eq {n depth : Nat} {l l' : Location} {names : List String}
    {active : List Location} (h : LeadsTo tree n l names l')
    (hactive : ∀ place ∈ active, tree.TakesAtLeast n place) (hnodup : active.Nodup)
    (hentries : ∀ place ∈ active, place ∈ tree.entries.map Prod.fst)
    (hdepth : tree.entries.length ≤ depth + active.length) :
    tree.resolveFrom depth active l names = .ok l' := by
  obtain ⟨follow, hfollow⟩ := exists_resolveWith tree depth
  induction h generalizing depth active follow with
  | done l =>
    rw [hfollow]
    rfl
  | stay hname _ ih =>
    have hrest := ih hactive hnodup hentries hdepth follow hfollow
    rw [hfollow] at hrest ⊢
    rwa [resolveWith_stay hname]
  | up _ ih =>
    have hrest := ih hactive hnodup hentries hdepth follow hfollow
    rw [hfollow] at hrest ⊢
    rwa [resolveWith_up]
  | entry hname hget _ ih =>
    have hrest := ih hactive hnodup hentries hdepth follow hfollow
    rw [hfollow] at hrest ⊢
    rwa [resolveWith_entry hname hget]
  | @link m n l l₁ l' name target rest hname hget htarget _ ihtarget ihrest =>
    have hnew : l ++ [name] ∉ active := fun hmem => by
      have htakes := hactive _ hmem l name target m l₁ rfl hget htarget
      omega
    have hnodup' : ((l ++ [name]) :: active).Nodup := List.nodup_cons.mpr ⟨hnew, hnodup⟩
    have hentries' : ∀ place ∈ (l ++ [name]) :: active, place ∈ tree.entries.map Prod.fst :=
      List.forall_mem_cons.mpr ⟨mem_entries_of_get? (by simp) hget, hentries⟩
    have hroom : active.length + 1 ≤ tree.entries.length := by
      simpa using hnodup'.length_le_of_subset hentries'
    have hactive' : ∀ place ∈ (l ++ [name]) :: active, tree.TakesAtLeast m place :=
      List.forall_mem_cons.mpr ⟨htarget.takesAtLeast hget, fun place hplace =>
        (hactive place hplace).mono (by omega)⟩
    cases depth with
    | zero => omega
    | succ depth =>
      have hdepth' : tree.entries.length ≤ depth + ((l ++ [name]) :: active).length := by
        rw [List.length_cons]
        omega
      obtain ⟨inside, hinside⟩ := exists_resolveWith tree depth
      have hworked := ihtarget hactive' hnodup' hentries' hdepth' inside hinside
      have hrest := ihrest (fun place hplace => (hactive place hplace).mono (by omega)) hnodup
        hentries hdepth follow hfollow
      exact (resolveWith_link hname hget hnew hworked).trans hrest

theorem LeadsTo.resolve?_eq {n : Nat} {path : String} (h : LeadsTo tree n [] (components path) l) :
    tree.resolve? path = some l := by
  have hresolve : tree.resolveFrom tree.entries.length [] [] (components path) = .ok l :=
    h.resolveFrom_eq (by simp) List.nodup_nil (by simp) (by simp)
  rw [resolve?, hresolve]

end Resolve

/-- A path that can be opened is resolved to where it leads, and what is below it without a link in
between to what is below that. -/
theorem resolve?_of_locate {tree : FileTree} {l : Location} {root path : String}
    {names : List String} (hroot : tree.locate root = .ok l)
    (hpath : components path = components root ++ names) (hnames : ∀ name ∈ names, IsEntryName name)
    (hlink : tree.passesLink l names = false) : tree.resolve? path = some (l ++ names) := by
  obtain ⟨n, hleads⟩ := exists_leadsTo_of_walk (walk_of_locate hroot)
  have hbelow := hleads.append (leadsTo_of_passesLink hnames hlink)
  rw [← hpath] at hbelow
  exact hbelow.resolve?_eq

end CodeAtlas.FileTree
