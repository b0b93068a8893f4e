import CodeAtlas.Proofs.FileTree.Resolve
import CodeAtlas.Proofs.Scan.Enumeration
import CodeAtlas.Proofs.Text.NormalPath

/-! # Spellings of a path

The same file can be asked for in many spellings. The relative ones are told by their text alone,
the absolute ones by where they lead, and so does the root. The two agree because enumeration yields
no path behind a link, and each path as it is spelled from its names.
-/
namespace CodeAtlas

namespace Path
open Text

/-- The second path spells the first one more loosely: with a dot in front, with slashes repeated,
or with dots between slashes. -/
inductive Spells (p : String) : String → Prop
  | itself : Spells p p
  | dot {q : String} (h : Spells p q) : Spells p ("./" ++ q)
  | slashes {front back : String} (h : Spells p (front ++ "/" ++ back)) :
      Spells p (front ++ "//" ++ back)
  | dots {front back : String} (h : Spells p (front ++ "/" ++ back)) :
      Spells p (front ++ "/./" ++ back)

/-- The path with backslashes for slashes. -/
def backslashed (p : String) : String :=
  String.ofList (p.toList.map fun c => if c = '/' then '\\' else c)

theorem isAbsolute_append {front : String} (h : front ≠ "") (back : String) :
    isAbsolute (front ++ back) = isAbsolute front := by
  rw [Bool.eq_iff_iff, isAbsolute_iff, isAbsolute_iff, String.toList_append]
  cases hlist : front.toList with
  | nil => exact absurd (String.toList_eq_nil_iff.mp hlist) h
  | cons c rest => simp

/-- What stands in front of a slash of a relative path is not empty. -/
theorem ne_empty_of_isAbsolute {front back : String}
    (h : isAbsolute (front ++ "/" ++ back) = false) : front ≠ "" := by
  rintro rfl
  refine Bool.eq_false_iff.mp h (isAbsolute_iff.mpr ⟨back.toList, ?_⟩)
  simp

theorem isAbsolute_of_root {root : String} (h : isAbsolute root = true) {p : String}
    (hp : isAbsolute p = false) : isAbsolute (join root p) = true := by
  have hne : root ≠ "" := by
    rintro rfl
    cases h
  rw [join, if_neg (by simp [hp])]
  split
  · rw [isAbsolute_append hne, h]
  · rw [String.append_assoc, isAbsolute_append hne, h]

section Spells
variable {p q : String}

theorem Spells.components_eq (h : Spells p q) : components q = components p := by
  induction h with
  | itself => rfl
  | @dot q _ ih => exact (components_append "." q).trans ih
  | @slashes front back _ ih =>
    have htext : front ++ "//" ++ back = front ++ "/" ++ ("/" ++ back) :=
      String.toList_inj.mp (by simp)
    rw [htext, components_append, components_slash, ← components_append]
    exact ih
  | @dots front back _ ih =>
    have htext : front ++ "/./" ++ back = front ++ "/" ++ ("." ++ "/" ++ back) :=
      String.toList_inj.mp (by simp)
    have hdot : components ("." ++ "/" ++ back) = components back := components_append "." back
    rw [htext, components_append, hdot, ← components_append]
    exact ih

theorem Spells.isAbsolute_eq (h : Spells p q) (hp : isAbsolute p = false) :
    isAbsolute q = false := by
  induction h with
  | itself => exact hp
  | dot => exact isAbsolute_append (by decide) _
  | slashes _ ih =>
    have hne := ne_empty_of_isAbsolute ih
    rw [String.append_assoc, isAbsolute_append hne] at ih ⊢
    exact ih
  | dots _ ih =>
    have hne := ne_empty_of_isAbsolute ih
    rw [String.append_assoc, isAbsolute_append hne] at ih ⊢
    exact ih

theorem Spells.not_mem {c : Char} (h : Spells p q) (hp : c ∉ p.toList) (hslash : c ≠ '/')
    (hdot : c ≠ '.') : c ∉ q.toList := by
  induction h with
  | itself => exact hp
  | dot _ ih => simp [hslash, hdot, ih]
  | slashes _ ih => simpa [hslash] using ih
  | dots _ ih => simpa [hslash, hdot] using ih

theorem clean_of_relative (h : isAbsolute q = false) (hne : components q ≠ []) :
    clean q = ofPieces (components q) := by
  have hbare : (ofPieces (components q) == "") = false := by
    simpa using ofPieces_ne_empty hne fun _ => isComponent_of_mem
  simp only [clean, anchor_eq_empty h, String.empty_append, hbare, Bool.false_eq_true, if_false]

theorem isAbsolute_backslashed (p : String) : isAbsolute (backslashed p) = false := by
  refine eq_false_of_ne_true fun h => ?_
  obtain ⟨rest, hrest⟩ := isAbsolute_iff.mp h
  have hmem : '/' ∈ (backslashed p).toList := by simp [hrest]
  rw [backslashed, String.toList_ofList, List.mem_map] at hmem
  obtain ⟨c, -, hc⟩ := hmem
  split at hc
  next => exact absurd hc (by decide)
  next hne => exact hne hc

/-- A path without backslashes comes back from its backslashed form. -/
theorem slashed_backslashed (h : '\\' ∉ p.toList) :
    String.ofList ((backslashed p).toList.map fun c => if c = '\\' then '/' else c) = p := by
  rw [← String.toList_inj, String.toList_ofList, backslashed, String.toList_ofList, List.map_map]
  have hback :
      ∀ c ∈ p.toList, ((fun c => if c = '\\' then '/' else c) ∘ fun c =>
      if c = '/' then '\\' else c) c = c := by
    intro c hc
    have hne : c ≠ '\\' := fun he => h (he ▸ hc)
    by_cases hslash : c = '/' <;> simp [hslash, hne]
  exact (List.map_congr_left hback).trans (List.map_id' _)

end Spells

end Path

namespace Corpus
open CodeAtlas.Path FileTree Scan

variable {tree : FileTree} {root p q : String} {selection : Selection} {c : Corpus}

/-- A path of a corpus that was scanned leads to a regular file, through directories. -/
theorem exists_reaches_of_scan (htree : tree.IsWellFormed)
    (hscan : scan tree root selection = .ok c) (hp : p ∈ c.paths) :
    ∃ l names content, tree.locate root = .ok l ∧ tree.Reaches l names (.file content) ∧
    ofPieces names = p := by
  have hmem : ∃ names ∈ regularFiles tree root, ofPieces names = p := by
    cases hfiles : ignoreFiles tree root selection with
    | error fault =>
      rw [scan, sourceFiles, hfiles] at hscan
      cases hscan
    | ok files =>
      cases hfound : sourceFiles tree root selection with
      | error fault =>
        rw [scan, hfound] at hscan
        cases hscan
      | ok found =>
        rw [scan, hfound] at hscan
        obtain rfl := Except.ok.inj hscan
        obtain ⟨-, -, rfl⟩ := (sourceFiles_eq_ok_iff_of_files hfiles).mp hfound
        have hkept := (List.mem_filter.mp (Text.Ascending.mem_ofList.mp hp)).1
        obtain ⟨names, hnames, hpath⟩ := List.mem_map.mp hkept
        exact ⟨names, (List.mem_filter.mp (List.mem_filter.mp hnames).1).1, hpath⟩
  obtain ⟨names, hnames, hpath⟩ := hmem
  cases hroot : tree.locate root with
  | error fault => simp [regularFiles, entriesBelow, hroot] at hnames
  | ok l =>
    obtain ⟨content, hreaches⟩ := (mem_regularFiles_iff htree hroot).mp hnames
    exact ⟨l, names, content, rfl, hreaches, hpath⟩

theorem root_of_scan (hscan : scan tree root selection = .ok c) : c.root = root := by
  rw [scan] at hscan
  cases hfound : sourceFiles tree root selection with
  | error fault =>
    rw [hfound] at hscan
    cases hscan
  | ok found =>
    rw [hfound] at hscan
    exact Except.ok.inj hscan ▸ rfl

/-- A relative path is spelled by its components. -/
theorem relativize_relative (hq : isAbsolute q = false) (hbackslash : '\\' ∉ q.toList)
    (hne : components q ≠ []) : c.relativize tree q = .ok (ofPieces (components q)) := by
  have hslashed : q.toList.map (fun c => if c = '\\' then '/' else c) = q.toList := by
    refine (List.map_congr_left fun c hc => ?_).trans (List.map_id' _)
    have hne : c ≠ '\\' := fun he => hbackslash (he ▸ hc)
    exact if_neg hne
  rw [relativize, if_neg (by simp [hq]), hslashed, String.ofList_toList, clean_of_relative hq hne]

theorem relativize_backslashed (hq : isAbsolute q = false) (hbackslash : '\\' ∉ q.toList)
    (hne : components q ≠ []) :
    c.relativize tree (backslashed q) = .ok (ofPieces (components q)) := by
  rw [relativize, if_neg (by simp [isAbsolute_backslashed]), slashed_backslashed hbackslash,
    clean_of_relative hq hne]

/-- An absolute path that leads below the root is spelled by the names from there on. -/
theorem relativize_absolute {l : Location} {names : List String} (hq : isAbsolute q = true)
    (hnul : '\x00' ∉ q.toList) (htarget : tree.resolve? q = some (l ++ names))
    (hroot : tree.resolve? c.root = some l) (hne : names ≠ [])
    (hnames : ∀ name ∈ names, IsComponent name) : c.relativize tree q = .ok (ofPieces names) := by
  have hbelow : l.isPrefixOf (l ++ names) = true :=
    List.isPrefixOf_iff_prefix.mpr (List.prefix_append l names)
  have hclean : clean (ofPieces names) = ofPieces names := by
    have hcomponents := components_ofPieces hnames
    have hrelative := clean_of_relative (isAbsolute_ofPieces hnames) (by rwa [hcomponents])
    rwa [hcomponents] at hrelative
  rw [relativize, if_pos hq, if_neg (by simpa using hnul), htarget, hroot]
  simp only [hbelow, if_true, List.drop_left, hclean]

theorem nul_not_mem_of_locate {l : Location} (h : tree.locate root = .ok l) :
    '\x00' ∉ root.toList := by
  rw [locate] at h
  split at h
  · cases h
  next hnul => simpa using hnul

theorem nul_not_mem_join {dir : String} (hdir : '\x00' ∉ dir.toList) (hq : '\x00' ∉ q.toList) :
    '\x00' ∉ (join dir q).toList := by
  rw [join]
  split
  · exact hq
  · split <;> simp [hdir, hq]

/-- Every spelling of a path of a scanned corpus leads to that path: the relative ones with slashes
or with backslashes, and the absolute ones below the root, whatever links lead to the root. The
names hold no NUL character, as no name does. -/
theorem relativize_spelling (htree : tree.IsWellFormed) (hscan : scan tree root selection = .ok c)
    (hp : p ∈ c.paths) (hbackslash : '\\' ∉ p.toList) (hnul : '\x00' ∉ p.toList)
    (hspells : Spells p q) :
    c.relativize tree q = .ok p ∧ c.relativize tree (backslashed q) = .ok p ∧
      (isAbsolute root = true → c.relativize tree (join root q) = .ok p) := by
  obtain ⟨l, names, content, hroot, hreaches, rfl⟩ := exists_reaches_of_scan htree hscan hp
  have hbelow := htree.mem_below_iff_reaches.mpr hreaches
  have hentries : ∀ name ∈ names, IsEntryName name :=
    fun name => htree.isEntryName_of_mem_below hbelow
  have hnames : ∀ name ∈ names, IsComponent name :=
    fun name hname => (hentries name hname).toIsComponent
  have hcomponents : components q = names :=
    hspells.components_eq.trans (components_ofPieces hnames)
  have hne : components q ≠ [] := hcomponents ▸ hreaches.ne_nil
  have hrelative := hspells.isAbsolute_eq (isAbsolute_ofPieces hnames)
  have hplain : '\\' ∉ q.toList := hspells.not_mem hbackslash (by decide) (by decide)
  have hquoted : '\x00' ∉ q.toList := hspells.not_mem hnul (by decide) (by decide)
  have hlink : tree.passesLink l names = false :=
    passesLink_of_opensTo (opensTo_iff.mpr hreaches.directories) (by simp [hreaches.get?_eq])
  refine ⟨?_, ?_, fun habsolute => ?_⟩
  · rw [relativize_relative hrelative hplain hne, hcomponents]
  · rw [relativize_backslashed hrelative hplain hne, hcomponents]
  · have hpath : components (join root q) = components root ++ names := by
      rw [components_join root hrelative, hcomponents]
    have htarget := resolve?_of_locate hroot hpath hentries hlink
    have hself : tree.resolve? root = some (l ++ []) :=
      resolve?_of_locate hroot (List.append_nil _).symm (by simp) rfl
    rw [List.append_nil, ← root_of_scan hscan] at hself
    exact relativize_absolute (isAbsolute_of_root habsolute hrelative)
      (nul_not_mem_join (nul_not_mem_of_locate hroot) hquoted) htarget hself hreaches.ne_nil hnames

/-- A directory behind links, one of them inside of another, and a link next to the file in it. -/
def linkedTree : FileTree :=
  ⟨[(["s"], .link "t/x/.."), (["t"], .link "/r"), (["r"], .directory), (["r", "x"], .directory),
    (["r", "x", "b.py"], .file []), (["r", "x", "l.py"], .link "b.py")]⟩

theorem relativize_spelling_linked :
    let c := Corpus.ofPaths "/s" ["x/b.py"]
    linkedTree.IsWellFormed ∧ scan linkedTree "/s" {} = .ok c ∧ "x/b.py" ∈ c.paths ∧
      c.relativize linkedTree "./x//b.py" = .ok "x/b.py" ∧
        c.relativize linkedTree ".\\x\\\\b.py" = .ok "x/b.py" ∧
      c.relativize linkedTree "/s/./x//b.py" = .ok "x/b.py" := by
  intro c
  have htree : linkedTree.IsWellFormed := by decide +kernel
  have hscan : scan linkedTree "/s" {} = .ok c := by
    have hvisit : IsVisit linkedTree "/s" (entriesBelow linkedTree "/s") := by decide +kernel
    rw [scan, hvisit.sourceFiles_eq_ok (by decide +kernel) (.refl ["x/b.py"]) (by decide +kernel)]
    rfl
  have hp : "x/b.py" ∈ c.paths := by decide +kernel
  have hspells : Spells "x/b.py" "./x//b.py" := by
    have hitself : Spells "x/b.py" ("x" ++ "/" ++ "b.py") := .itself
    exact .dot (.slashes hitself)
  obtain ⟨hrelative, hbackslashed, habsolute⟩ :=
    relativize_spelling htree hscan hp (by decide) (by decide) hspells
  exact ⟨htree, hscan, hp, hrelative, hbackslashed, habsolute (by decide)⟩

end Corpus

end CodeAtlas
