import CodeAtlas.Proofs.Text.Path

/-! # Normal forms of relative paths

Working out the double dots of a relative path is the same as walking from directory to directory,
as long as the way stays below the root. Once it has led above the root it does not come back: the
double dots stay at the front.
-/
namespace CodeAtlas.Path
open Text

/-! ## Directories -/

/-- Whether a piece of a path counts as a component. -/
def counts (piece : String) : Bool := piece != "" && piece != "."

theorem components_eq_filter (p : String) : components p = (pieces p).filter counts := rfl

theorem components_reverse_slash (front : List Char) :
    components (String.ofList ('/' :: front).reverse) =
      components (String.ofList front.reverse) := by
  have hcut := components_append (String.ofList front.reverse) ""
  rw [components_empty, List.append_nil, String.append_empty] at hcut
  rw [List.reverse_cons, String.ofList_append]
  exact hcut

theorem components_dropWhile_slash (front : List Char) :
    components (String.ofList (front.dropWhile (· == '/')).reverse) =
      components (String.ofList front.reverse) := by
  induction front with
  | nil => rfl
  | cons c front ih =>
    by_cases hc : c = '/'
    · rw [hc, components_reverse_slash, ← ih]
      rfl
    · rw [List.dropWhile_cons_of_neg (by simpa using hc)]

/-- The components of a directory are those of the path in front of the last slash. -/
theorem components_directory (p : String) :
    components (directory p) = (pieces p).dropLast.filter counts := by
  have hsplit := List.takeWhile_append_dropWhile (p := (· != '/')) (l := p.toList.reverse)
  have htail : '/' ∉ p.toList.reverse.takeWhile (· != '/') := by
    intro hc
    simpa using List.mem_takeWhile_imp hc
  have hhead := List.head?_dropWhile_not (· != '/') p.toList.reverse
  simp only [directory]
  generalize p.toList.reverse.takeWhile (· != '/') = tail at hsplit htail
  generalize p.toList.reverse.dropWhile (· != '/') = head at hsplit hhead
  have hlist : p.toList = head.reverse ++ tail.reverse := by
    rw [← List.reverse_append, hsplit, List.reverse_reverse]
  have htail' : '/' ∉ tail.reverse := by simpa using htail
  cases head with
  | nil =>
    rw [List.reverse_nil, List.nil_append] at hlist
    rw [pieces, hlist, splitOn_of_not_mem htail']
    rfl
  | cons c front =>
    obtain rfl : c = '/' := by simpa using hhead
    have hpieces : (pieces p).dropLast = pieces (String.ofList front.reverse) := by
      rw [pieces, pieces, hlist, List.reverse_cons, List.append_assoc, List.singleton_append,
        splitOn_append_sep, splitOn_of_not_mem htail', List.map_append, List.map_singleton,
        List.dropLast_concat, String.toList_ofList]
    rw [hpieces, ← components_eq_filter, ← components_reverse_slash]
    split
    · rfl
    · rw [List.reverse_reverse, components_dropWhile_slash]

theorem isAbsolute_iff {p : String} : isAbsolute p = true ↔ ∃ rest, p.toList = '/' :: rest := by
  rw [isAbsolute, startsWith, Option.isSome_iff_exists]
  exact exists_congr fun rest => after?_eq_some_iff

theorem isPrefix_reverse_dropWhile (test : Char → Bool) (text : List Char) :
    (text.reverse.dropWhile test).reverse <+: text := by
  rw [← List.reverse_suffix, List.reverse_reverse]
  exact List.dropWhile_suffix test

theorem isAbsolute_directory {p : String} (h : isAbsolute p = false) :
    isAbsolute (directory p) = false := by
  have hfront : (directory p).toList <+: p.toList := by
    have hhead := isPrefix_reverse_dropWhile (· != '/') p.toList
    simp only [directory]
    split
    · rwa [String.toList_ofList]
    · rw [String.toList_ofList]
      exact (isPrefix_reverse_dropWhile _ _).trans hhead
  refine eq_false_of_ne_true fun habsolute => ?_
  obtain ⟨rest, hrest⟩ := isAbsolute_iff.mp habsolute
  obtain ⟨behind, hbehind⟩ := hfront
  rw [hrest] at hbehind
  exact Bool.eq_false_iff.mp h (isAbsolute_iff.mpr ⟨_, hbehind.symm⟩)

theorem isAbsolute_join {dir p : String} (hdir : isAbsolute dir = false)
    (hp : isAbsolute p = false) : isAbsolute (join dir p) = false := by
  have hlonger (behind : String) (hne : dir ≠ "") : isAbsolute (dir ++ behind) = false := by
    refine eq_false_of_ne_true fun habsolute => ?_
    obtain ⟨rest, hrest⟩ := isAbsolute_iff.mp habsolute
    rw [String.toList_append] at hrest
    cases hlist : dir.toList with
    | nil => exact hne (String.toList_eq_nil_iff.mp hlist)
    | cons c front =>
      rw [hlist] at hrest
      obtain rfl : c = '/' := (List.cons.inj hrest).1
      exact Bool.eq_false_iff.mp hdir (isAbsolute_iff.mpr ⟨front, hlist⟩)
  unfold join
  rw [hp, if_neg (by decide)]
  by_cases hne : dir = ""
  · simpa [hne] using hp
  · split
    · exact hlonger p hne
    · rw [String.append_assoc]
      exact hlonger _ hne

theorem anchor_eq_empty {p : String} (h : isAbsolute p = false) : anchor p = "" := by
  have hno (rest : List Char) : p.toList ≠ '/' :: rest := fun hlist =>
    Bool.eq_false_iff.mp h (isAbsolute_iff.mpr ⟨rest, hlist⟩)
  unfold anchor
  split
  next hlist => exact absurd hlist (hno _)
  next hlist => exact absurd hlist (hno _)
  next hlist => exact absurd hlist (hno _)
  next => rfl

/-! ## Joining names -/

section Names
variable {names : List String}

theorem ofPieces_ne_empty (hne : names ≠ []) (h : ∀ name ∈ names, IsComponent name) :
    ofPieces names ≠ "" := by
  intro hempty
  have hnames := components_ofPieces h
  rw [hempty, components_empty] at hnames
  exact hne hnames.symm

/-- A name behind a path of names is one more of them. -/
theorem join_ofPieces (hne : names ≠ []) (h : ∀ name ∈ names, IsComponent name) {name : String}
    (hname : isAbsolute name = false) :
    join (ofPieces names) name = ofPieces (names ++ [name]) := by
  have hslash : endsWith "/" (ofPieces names).toList = false := by
    refine eq_false_of_ne_true fun hends => ?_
    obtain ⟨front, hfront⟩ := exists_of_endsWith_slash hends
    have hpieces := pieces_ofPieces hne fun name hname => (h name hname).slash
    have hempty : "" ∈ pieces (front ++ "/") := by
      have hlist : (front ++ "/").toList = front.toList ++ '/' :: [] := by simp
      rw [pieces, hlist, splitOn_append_sep]
      simp [splitOn]
    rw [hfront] at hpieces
    exact (h "" (hpieces ▸ hempty)).ne_empty rfl
  have hbare : (ofPieces names == "") = false := by simpa using ofPieces_ne_empty hne h
  rw [join, hname, hslash, hbare, ofPieces, ofPieces,
    String.intercalate_append_of_ne_nil hne (by simp)]
  simp

end Names

/-! ## Double dots -/

theorem isComponent_parent : IsComponent ".." := ⟨by decide, by decide, by decide⟩

theorem isComponent_of_mem_push {absolute : Bool} {done : List String} {c : String}
    (hdone : ∀ name ∈ done, IsComponent name) (hc : IsComponent c) :
    ∀ name ∈ push absolute done c, IsComponent name := by
  unfold push
  split
  · simpa [hc] using hdone
  · cases done with
    | nil => cases absolute <;> simp [isComponent_parent]
    | cons last before =>
      simp only
      split
      · simpa [hc] using hdone
      · exact fun name hname => hdone name (List.mem_cons_of_mem _ hname)

theorem isComponent_of_mem_resolveDots {absolute : Bool} {cs : List String}
    (h : ∀ c ∈ cs, IsComponent c) : ∀ name ∈ resolveDots absolute cs, IsComponent name := by
  have hfold (done : List String) (hdone : ∀ name ∈ done, IsComponent name) :
      ∀ name ∈ cs.foldl (push absolute) done, IsComponent name := by
    induction cs generalizing done with
    | nil => exact hdone
    | cons c cs ih =>
      exact ih (fun c hc => h c (List.mem_cons_of_mem _ hc)) _
        (isComponent_of_mem_push hdone (h c List.mem_cons_self))
  intro name hname
  exact hfold [] (by simp) name (List.mem_reverse.mp hname)

/-- The names of the normal form of a relative path. -/
def normalNames (p : String) : List String := resolveDots false (components p)

theorem isComponent_of_mem_normalNames {p : String} : ∀ name ∈ normalNames p, IsComponent name :=
  isComponent_of_mem_resolveDots fun _ => isComponent_of_mem

theorem normalize_eq {p : String} (h : isAbsolute p = false) :
    normalize p = if normalNames p = [] then "." else ofPieces (normalNames p) := by
  have hanchor := anchor_eq_empty h
  have hnormal :
      normalize p = if ofPieces (normalNames p) == "" then "." else ofPieces (normalNames p) := by
    simp only [normalize, hanchor, String.empty_append]
    rfl
  rw [hnormal]
  by_cases hne : normalNames p = []
  · rw [hne]
    rfl
  · have hbare : (ofPieces (normalNames p) == "") = false := by
      simpa using ofPieces_ne_empty hne isComponent_of_mem_normalNames
    rw [hbare, if_neg hne, if_neg (by decide)]

/-- Where a piece of a path leads from a directory, which is given by the names on the way from the
root to it; nowhere from the root upward. -/
def walk (dir : List String) (piece : String) : Option (List String) :=
  if piece = "" ∨ piece = "." then some dir
  else if piece = ".." then if dir = [] then none else some dir.dropLast
  else some (dir ++ [piece])

theorem getLast?_push {done : List String} (h : done.getLast? = some "..") (c : String) :
    (push false done c).getLast? = some ".." := by
  obtain ⟨last, before, rfl⟩ := List.exists_cons_of_ne_nil (show done ≠ [] by rintro rfl; cases h)
  unfold push
  split
  · rwa [List.getLast?_cons_cons]
  · simp only
    split
    · rwa [List.getLast?_cons_cons]
    next hlast =>
      cases before with
      | nil => simp_all
      | cons _ _ => rwa [List.getLast?_cons_cons] at h

/-- A way that has led above the root stays there. -/
theorem getLast?_foldl_push {done : List String} (h : done.getLast? = some "..")
    (cs : List String) : (cs.foldl (push false) done).getLast? = some ".." := by
  induction cs generalizing done with
  | nil => exact h
  | cons c cs ih => exact ih (getLast?_push h c)

/-- Below the root, taking one piece more is the same as walking on. -/
theorem push_of_walk {dir next : List String} {piece : String} (hdir : ".." ∉ dir)
    (hcounts : counts piece = true) (h : walk dir piece = some next) :
    push false dir.reverse piece = next.reverse ∧ ".." ∉ next := by
  have hpiece : ¬ (piece = "" ∨ piece = ".") := by simpa [counts] using hcounts
  rw [walk, if_neg hpiece] at h
  by_cases hup : piece = ".."
  · obtain ⟨hne, hnext⟩ := Option.ite_none_left_eq_some.mp ((if_pos hup).symm.trans h)
    obtain rfl := Option.some.inj hnext
    obtain ⟨front, last, rfl⟩ : ∃ front last, dir = front ++ [last] :=
      ⟨_, _, (List.dropLast_concat_getLast hne).symm⟩
    have hlast : (last == "..") = false := by
      simp only [List.mem_append, List.mem_singleton, not_or] at hdir
      simpa using Ne.symm hdir.2
    simp_all [push]
  · rw [if_neg hup, Option.some.injEq] at h
    subst h
    simpa [push, hup, hdir] using Ne.symm hup

theorem foldl_push_of_walk {pieces dir : List String} (hdir : ".." ∉ dir) :
    (∀ names, pieces.foldlM walk dir = some names →
      (pieces.filter counts).foldl (push false) dir.reverse = names.reverse ∧ ".." ∉ names) ∧
    (pieces.foldlM walk dir = none →
      ((pieces.filter counts).foldl (push false) dir.reverse).getLast? = some "..") := by
  induction pieces generalizing dir with
  | nil => simp [hdir]
  | cons piece pieces ih =>
    rw [List.foldlM_cons]
    cases hcounts : counts piece with
    | false =>
      have hstay : walk dir piece = some dir :=
        if_pos (by simpa [counts, ← or_iff_not_imp_left] using hcounts)
      simpa [hstay, hcounts] using ih hdir
    | true =>
      rw [List.filter_cons_of_pos hcounts, List.foldl_cons]
      cases hnext : walk dir piece with
      | some next =>
        obtain ⟨hpush, hbelow⟩ := push_of_walk hdir hcounts hnext
        rw [hpush]
        exact ih hbelow
      | none =>
        have hpush : push false dir.reverse piece = [".."] := by
          have hpiece : ¬ (piece = "" ∨ piece = ".") := by simpa [counts] using hcounts
          rw [walk, if_neg hpiece] at hnext
          by_cases hup : piece = ".."
          · simp_all [push]
          · simp [hup] at hnext
        rw [hpush]
        exact ⟨by simp, fun _ => getLast?_foldl_push rfl _⟩

end CodeAtlas.Path
