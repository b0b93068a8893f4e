import CodeAtlas.Corpus
import CodeAtlas.Proofs.Scan.Composition
import CodeAtlas.Proofs.Scan.Isolation

/-! # What enumeration yields

Enumeration yields the paths of all wanted files and of no others, each of them once, in the order
of code points. A corpus keeps them as they are. Only a path that is too long, or a link with too
long a name on its way, keeps enumeration from its end once the ignore files have an answer for
every file they are asked about.
-/
namespace CodeAtlas

/-- A list that is ascending already is the set of its texts. -/
theorem Text.Ascending.ofList_of_pairwise {texts : List String} (h : texts.Pairwise (· < ·)) :
    ofList texts = texts := by
  induction texts with
  | nil => rfl
  | cons s rest ih =>
    obtain ⟨hfirst, hrest⟩ := List.pairwise_cons.mp h
    rw [ofList, List.foldr_cons, ← ofList, ih hrest]
    cases rest with
    | nil => rfl
    | cons t rest => exact if_pos (hfirst t List.mem_cons_self)

namespace FileTree

/-- An entry stands at the given names from a location on, and what stands on the way there are
directories. -/
structure Reaches (tree : FileTree) (l : Location) (names : List String) (e : Entry) : Prop where
  ne_nil : names ≠ []
  directories : ∀ n, 0 < n → n < names.length → tree.get? (l ++ names.take n) = some .directory
  get?_eq : tree.get? (l ++ names) = some e

section Reaches
variable {tree : FileTree} {l : Location} {names : List String} {e e' : Entry}

theorem opensTo_iff : tree.opensTo l names = true ↔
    ∀ n, 0 < n → n < names.length → tree.get? (l ++ names.take n) = some .directory := by
  induction names generalizing l with
  | nil => simp [opensTo]
  | cons name rest ih =>
    cases rest with
    | nil =>
      refine iff_of_true rfl fun n hpos hlt => ?_
      rw [List.length_singleton] at hlt
      omega
    | cons next rest =>
      rw [opensTo_cons_cons, Bool.and_eq_true, beq_iff_eq, ih]
      constructor
      · rintro ⟨hfirst, hlater⟩ n hpos hlt
        obtain ⟨n, rfl⟩ := Nat.exists_eq_succ_of_ne_zero hpos.ne'
        by_cases hn : n = 0
        · simpa [hn] using hfirst
        · simpa using hlater n (by omega) (by simpa using hlt)
      · intro h
        refine ⟨by simpa using h 1 (by omega) (by simp), fun n hpos hlt => ?_⟩
        simpa using h (n + 1) (by omega) (by simpa using hlt)

theorem IsWellFormed.mem_below_iff_reaches (h : tree.IsWellFormed) :
    (names, e) ∈ tree.below l ↔ tree.Reaches l names e := by
  rw [h.mem_below_iff, opensTo_iff]
  exact ⟨fun ⟨hne, hopens, hget⟩ => ⟨hne, hopens, hget⟩,
    fun h => ⟨h.ne_nil, h.directories, h.get?_eq⟩⟩

theorem Reaches.entry_eq (h : tree.Reaches l names e) (h' : tree.Reaches l names e') : e = e' :=
  Option.some.inj (h.get?_eq.symm.trans h'.get?_eq)

end Reaches

end FileTree

namespace Scan
open FileTree CodeAtlas.Path

section Below
variable {tree : FileTree} {l : Location} {root : String} {names : List String}

theorem mem_entriesBelow_iff {e : Entry} (htree : tree.IsWellFormed)
    (hroot : tree.locate root = .ok l) :
    (names, e) ∈ entriesBelow tree root ↔ tree.Reaches l names e := by
  rw [entriesBelow, hroot, htree.mem_below_iff_reaches]

theorem mem_regularFiles_iff (htree : tree.IsWellFormed) (hroot : tree.locate root = .ok l) :
    names ∈ regularFiles tree root ↔ ∃ content, tree.Reaches l names (.file content) := by
  constructor
  · intro h
    obtain ⟨content, hmem⟩ := exists_of_mem_regularFiles hroot h
    exact ⟨content, htree.mem_below_iff_reaches.mp hmem⟩
  · rintro ⟨content, h⟩
    rw [(regularFiles_perm tree root).mem_iff, List.mem_filterMap]
    exact ⟨(names, .file content), (mem_entriesBelow_iff htree hroot).mpr h, rfl⟩

theorem nodup_regularFiles (htree : tree.IsWellFormed) (hroot : tree.locate root = .ok l) :
    (regularFiles tree root).Nodup := by
  rw [(regularFiles_perm tree root).nodup_iff, entriesBelow, hroot]
  -- the names of a file tell it from all others, since one location has one content
  refine List.Pairwise.filterMap _ ?_ (List.Pairwise.and_mem.mp (htree.nodup_below l))
  rintro entry other ⟨hmem, hmem', hne⟩ found hfound found' hfound' rfl
  obtain ⟨content, rfl⟩ := exists_of_fileNames? hfound
  obtain ⟨content', rfl⟩ := exists_of_fileNames? hfound'
  have hentry :=
    (htree.mem_below_iff_reaches.mp hmem).entry_eq (htree.mem_below_iff_reaches.mp hmem')
  exact hne (congrArg _ hentry)

/-- Sorted by their paths the files are strictly ascending: different files have different paths. -/
theorem pairwise_regularFiles (htree : tree.IsWellFormed) (hroot : tree.locate root = .ok l) :
    (regularFiles tree root).Pairwise fun a b => ofPieces a < ofPieces b := by
  refine List.Pairwise.imp_of_mem ?_
    ((ascending_regularFiles tree root).and (nodup_regularFiles htree hroot))
  rintro a b ha hb ⟨hle, hne⟩
  obtain ⟨content, ha⟩ := exists_of_mem_regularFiles hroot ha
  obtain ⟨content', hb⟩ := exists_of_mem_regularFiles hroot hb
  refine String.not_le.mp fun hge => hne ?_
  apply ofPieces_inj (htree.mem_below_iff.mp ha).1 (htree.mem_below_iff.mp hb).1
  · exact fun name hname => (htree.isEntryName_of_mem_below ha hname).slash
  · exact fun name hname => (htree.isEntryName_of_mem_below hb hname).slash
  · exact String.le_antisymm hle hge

end Below

/-! ## Wanted files -/

/-- What is wanted of a file by its names: no directory on the way is hidden or one of foreign or
built code, and the suffix of the file is allowed. Its own name may well be hidden. -/
structure Selection.Admits (selection : Selection) (names : List String) : Prop where
  directories : ∀ directory ∈ names.dropLast, directory ∉ skippedDirectories ∧
    directory.toList.head? ≠ some '.'
  suffix : ∀ suffixes, selection.suffixes = some suffixes →
    ∃ name, names.getLast? = some name ∧ Path.suffix name ∈ suffixes

/-- What is wanted of a path: it is in one of the patterns to include if there are any, and in none
of those to exclude. -/
structure Selection.Matches (selection : Selection) (path : String) : Prop where
  included : selection.included = [] ∨ ∃ glob ∈ selection.included,
    Pattern.isGlobOf glob path = true
  excluded : ∀ glob ∈ selection.excluded, Pattern.isGlobOf glob path = false

/-- The wanted files below a location: regular files that no link leads to, which the selection
wants and none of the ignore files drops. `top` are the names by which the ignore files know the
location. -/
structure IsWanted (tree : FileTree) (l top : Location) (selection : Selection)
    (files : List IgnoreFile) (names : List String) : Prop where
  regular : ∃ content, tree.Reaches l names (.file content)
  admits : selection.Admits names
  unignored : ¬ Dropped files (top ++ names)
  patterns : selection.Matches (ofPieces names)

/-- The paths of the wanted files and no others, strictly ascending. -/
structure IsEnumeration (wanted : List String → Prop) (paths : List String) : Prop where
  ascending : paths.Pairwise (· < ·)
  mem_iff : ∀ path, path ∈ paths ↔ ∃ names, wanted names ∧ ofPieces names = path

section Wanted
variable {selection : Selection} {names : List String}

theorem isSkipped_eq_false_iff {directory : String} : isSkipped directory = false ↔
    directory ∉ skippedDirectories ∧ directory.toList.head? ≠ some '.' := by
  have hhidden : Text.startsWith "." directory.toList = true ↔ directory.toList.head? = some '.' :=
    Text.startsWith_iff_head? rfl
  rw [isSkipped, Bool.or_eq_false_iff, ← Bool.not_eq_true, ← Bool.not_eq_true, hhidden,
    List.contains_iff_mem]

theorem admits_iff (hne : names ≠ []) : selection.admits names = true ↔ selection.Admits names := by
  have hdirectories : (!names.dropLast.any isSkipped) = true ↔
      ∀ directory ∈ names.dropLast, directory ∉ skippedDirectories ∧
        directory.toList.head? ≠ some '.' := by
    rw [Bool.not_eq_true', List.any_eq_false]
    simp only [Bool.not_eq_true, isSkipped_eq_false_iff]
  obtain ⟨name, hname⟩ : ∃ name, names.getLast? = some name :=
    ⟨_, List.getLast?_eq_some_getLast hne⟩
  rw [Selection.admits, Bool.and_eq_true, hdirectories, hname]
  cases hsuffixes : selection.suffixes with
  | none => exact ⟨fun h => ⟨h.2, by simp [hsuffixes]⟩, fun h => ⟨rfl, h.directories⟩⟩
  | some suffixes =>
    constructor
    · intro h
      refine ⟨h.2, fun others hothers => ⟨name, hname, ?_⟩⟩
      obtain rfl := Option.some.inj (hsuffixes.symm.trans hothers)
      simpa using h.1
    · intro h
      obtain ⟨other, hother, hmem⟩ := h.suffix suffixes hsuffixes
      obtain rfl := Option.some.inj (hname.symm.trans hother)
      exact ⟨by simpa using hmem, h.directories⟩

theorem matches_iff {path : String} : selection.matches path = true ↔ selection.Matches path := by
  rw [Selection.matches, Bool.and_eq_true, Bool.or_eq_true, List.isEmpty_iff, List.any_eq_true,
    Bool.not_eq_true', List.any_eq_false]
  simp only [Bool.not_eq_true]
  exact ⟨fun h => ⟨h.1, h.2⟩, fun h => ⟨h.included, h.excluded⟩⟩

end Wanted

section Enumeration
variable {tree : FileTree} {l : Location} {root : String} {selection : Selection}
  {files : List IgnoreFile}

/-- What is left of the files once they are filtered by names, by the ignore files and by paths. -/
theorem isEnumeration_keptPaths (htree : tree.IsWellFormed) (hroot : tree.locate root = .ok l) :
    IsEnumeration (IsWanted tree l (components (normalize root)) selection files)
      (keptPaths root selection files (regularFiles tree root)) where
  ascending := by
    refine List.Pairwise.filter _ (List.pairwise_map.mpr ?_)
    exact ((pairwise_regularFiles htree hroot).filter _).filter _
  mem_iff path := by
    simp only [keptPaths, List.mem_filter, List.mem_map, mem_regularFiles_iff htree hroot,
      decide_eq_true_eq]
    constructor
    · rintro ⟨⟨names, ⟨⟨hfile, hadmits⟩, hkept⟩, rfl⟩, hmatches⟩
      have hne : names ≠ [] := hfile.elim fun _ h => h.ne_nil
      exact ⟨names, ⟨hfile, (admits_iff hne).mp hadmits, hkept, matches_iff.mp hmatches⟩, rfl⟩
    · rintro ⟨names, ⟨hfile, hadmits, hkept, hmatches⟩, rfl⟩
      have hne : names ≠ [] := hfile.elim fun _ h => h.ne_nil
      exact ⟨⟨names, ⟨⟨hfile, (admits_iff hne).mpr hadmits⟩, hkept⟩, rfl⟩, matches_iff.mpr hmatches⟩

/-- An entry has a fault of its own, or the ignore files have one when they are asked about it. -/
theorem eq_nameTooLong_or_of_wanted? {entry : List String × Entry} {fault : Fault}
    (h : wanted? tree root selection files entry = .error fault) :
    fault = .nameTooLong ∨ ∃ names, (fileNames? entry).filter selection.admits = some names ∧
      isIgnored files (components (normalize root) ++ names) = .error fault := by
  unfold wanted? at h
  split_ifs at h with hlong
  · exact .inl (Except.error.inj h).symm
  · cases hcandidate : (fileNames? entry).filter selection.admits with
    | none => simp [hcandidate] at h
    | some names =>
      refine .inr ⟨names, rfl, ?_⟩
      cases hignored : isIgnored files (components (normalize root) ++ names) with
      | ok ignored => simp [hcandidate, hignored, Except.map] at h
      | error other => simpa [hcandidate, hignored, Except.map] using h

/-- Where the ignore files have an answer, nothing but a path can be a fault. -/
theorem eq_nameTooLong_of_sourceFiles {fault : Fault}
    (hfiles : ignoreFiles tree root selection = .ok files)
    (hasked : ∀ names ∈ (regularFiles tree root).filter selection.admits,
      ∃ ignored, isIgnored files (components (normalize root) ++ names) = .ok ignored)
    (h : sourceFiles tree root selection = .error fault) : fault = .nameTooLong := by
  rw [sourceFiles_eq_map hfiles] at h
  cases hvisits : (visited tree root).filterMapM (wanted? tree root selection files) with
  | ok paths =>
    rw [hvisits] at h
    cases h
  | error other =>
    rw [hvisits] at h
    obtain rfl := Except.error.inj h
    obtain ⟨entry, hentry, hfault⟩ := exists_of_filterMapM_eq_error hvisits
    rcases eq_nameTooLong_or_of_wanted? hfault with hlong | ⟨names, hnames, hignored⟩
    · exact hlong
    · obtain ⟨ignored, hanswer⟩ :=
        hasked names (mem_admitted_iff.mpr ⟨entry, mem_visited.mp hentry, hnames⟩)
      cases hignored.symm.trans hanswer

/-- Once the ignore files are read and have an answer for every file they are asked about,
enumeration yields exactly the wanted files in ascending order, and the corpus keeps them so; unless
something below the directory, wanted or not, has too long a path, or is a link with too long a name
on its way. -/
theorem sourceFiles_isEnumeration (htree : tree.IsWellFormed) (hroot : tree.locate root = .ok l)
    (hfiles : ignoreFiles tree root selection = .ok files)
    (hanswers : ∀ names content, tree.Reaches l names (.file content) → selection.Admits names →
      ∃ ignored, isIgnored files (components (normalize root) ++ names) = .ok ignored) :
    ((∀ names e, tree.Reaches l names e → tree.isTooLong (pathBelow root names) = false) ∧
      ∃ found, sourceFiles tree root selection = .ok found ∧
        IsEnumeration (IsWanted tree l (components (normalize root)) selection files) found ∧
        ∃ c, Corpus.scan tree root selection = .ok c ∧ c.root = root ∧ c.paths = found) ∨
    ((∃ names e, tree.Reaches l names e ∧ tree.isTooLong (pathBelow root names) = true) ∧
      sourceFiles tree root selection = .error .nameTooLong ∧
        Corpus.scan tree root selection = .error .nameTooLong) := by
  have hasked (names : List String)
      (hmem : names ∈ (regularFiles tree root).filter selection.admits) :
      ∃ ignored, isIgnored files (components (normalize root) ++ names) = .ok ignored := by
    obtain ⟨hfile, hadmits⟩ := List.mem_filter.mp hmem
    obtain ⟨content, hreaches⟩ := (mem_regularFiles_iff htree hroot).mp hfile
    exact hanswers names content hreaches ((admits_iff hreaches.ne_nil).mp hadmits)
  by_cases hlong : ∃ names e, tree.Reaches l names e ∧ tree.isTooLong (pathBelow root names) = true
  · have hfault : sourceFiles tree root selection = .error .nameTooLong := by
      obtain ⟨names, e, hreaches, htoo⟩ := hlong
      cases hscan : sourceFiles tree root selection with
      | ok found =>
        have hmem : (names, e) ∈ entriesBelow tree root :=
          (mem_entriesBelow_iff htree hroot).mpr hreaches
        have hshort := ((sourceFiles_eq_ok_iff_of_files hfiles).mp hscan).1 (names, e) hmem
        rw [htoo] at hshort
        cases hshort
      | error fault => rw [eq_nameTooLong_of_sourceFiles hfiles hasked hscan]
    refine .inr ⟨hlong, hfault, ?_⟩
    rw [Corpus.scan, hfault]
    rfl
  · have hshort : ∀ names e, tree.Reaches l names e →
        tree.isTooLong (pathBelow root names) = false := by
      intro names e hreaches
      exact Bool.eq_false_iff.mpr fun h => hlong ⟨names, e, hreaches, h⟩
    have hfound : sourceFiles tree root selection =
        .ok (keptPaths root selection files (regularFiles tree root)) := by
      refine (sourceFiles_eq_ok_iff_of_files hfiles).mpr ⟨fun entry hentry => ?_, ?_, rfl⟩
      · exact hshort entry.1 entry.2 ((mem_entriesBelow_iff htree hroot).mp hentry)
      · intro names hnames
        obtain ⟨ignored, hignored⟩ := hasked names hnames
        exact (isIgnored_eq_ok_iff.mp hignored).1
    have henumeration : IsEnumeration
        (IsWanted tree l (components (normalize root)) selection files)
        (keptPaths root selection files (regularFiles tree root)) :=
      isEnumeration_keptPaths htree hroot
    refine .inl ⟨hshort, _, hfound, henumeration, ?_⟩
    rw [Corpus.scan, hfound]
    exact ⟨_, rfl, rfl, Text.Ascending.ofList_of_pairwise henumeration.ascending⟩

end Enumeration

/-- A directory behind a link, with links, hidden directories, built code and a rule about
logs in it. -/
def mixedTree : FileTree :=
  ⟨[(["s"], .link "r"), (["r"], .directory), (["r", ".a"], .directory),
    (["r", ".gitignore"], .file (Text.Utf8.encode "*.log\n".toList)), (["r", "a"], .directory),
    (["r", "a-b.py"], .file []), (["r", "a.log"], .link "."), (["r", "a.py"], .link "a-b.py"),
    (["r", "t_x.py"], .file []), (["r", "x.log"], .file []), (["r", ".a", "e.py"], .file []),
    (["r", "a", ".c.py"], .file []), (["r", "a", "b.py"], .file []),
    (["r", "a", "build"], .directory), (["r", "a", "build", "d.py"], .file [])]⟩

/-- Every way to be left out, and an order that is not that of the names: the hyphen comes before
the slash. -/
theorem sourceFiles_isEnumeration_mixed :
    let selection : Selection :=
      { included := [".a*", "a*", "[tx]*"], excluded := ["t_*"], suffixes := some [".py", ".log"] }
    let files := inUse mixedTree "/s" selection
    mixedTree.IsWellFormed ∧ mixedTree.locate "/s" = .ok ["r"] ∧
      ignoreFiles mixedTree "/s" selection = .ok files ∧
      IsEnumeration (IsWanted mixedTree ["r"] ["s"] selection files)
        ["a-b.py", "a/.c.py", "a/b.py"] := by
  intro selection files
  have htree : mixedTree.IsWellFormed := by decide +kernel
  have hroot : mixedTree.locate "/s" = .ok ["r"] := by decide +kernel
  have htop : components (normalize "/s") = ["s"] := by decide +kernel
  have hregular : regularFiles mixedTree "/s" = [[".a", "e.py"], [".gitignore"], ["a-b.py"],
      ["a", ".c.py"], ["a", "b.py"], ["a", "build", "d.py"], ["t_x.py"], ["x.log"]] := by
    apply regularFiles_eq_of_pairwise <;> decide +kernel
  have hfiles : ignoreFiles mixedTree "/s" selection = .ok files := by decide +kernel
  have hfound : sourceFiles mixedTree "/s" selection = .ok ["a-b.py", "a/.c.py", "a/b.py"] := by
    have hvisit : IsVisit mixedTree "/s" (entriesBelow mixedTree "/s") := by decide +kernel
    exact hvisit.sourceFiles_eq_ok (by decide +kernel) (.refl _) (by decide +kernel)
  have hasked :
      ∀ names ∈ regularFiles mixedTree "/s", (isIgnored files ("s" :: names)).isOk = true := by
    rw [hregular]
    decide +kernel
  have hanswers (names : List String) (content : List UInt8)
      (hfile : mixedTree.Reaches ["r"] names (.file content)) (_ : selection.Admits names) :
      ∃ ignored, isIgnored files (components (normalize "/s") ++ names) = .ok ignored := by
    rw [htop]
    have hok := hasked names ((mem_regularFiles_iff htree hroot).mpr ⟨content, hfile⟩)
    cases hignored : isIgnored files ("s" :: names) with
    | ok ignored => exact ⟨ignored, hignored⟩
    | error fault => simp [hignored, Except.isOk, Except.toBool] at hok
  refine ⟨htree, hroot, hfiles, ?_⟩
  rcases sourceFiles_isEnumeration htree hroot hfiles hanswers with
    ⟨-, found, hok, henumeration, -⟩ | ⟨-, hfault, -⟩
  · obtain rfl := Except.ok.inj (hfound.symm.trans hok)
    rwa [htop] at henumeration
  · cases hfound.symm.trans hfault

/-- A link with too long a name for its target keeps enumeration from yielding the file next to it,
which is wanted and which no ignore file is asked about. -/
theorem sourceFiles_overlong_link :
    let tree := treeWith [(["r", "l"], .link (String.ofList (List.replicate 256 'x')))]
    tree.IsWellFormed ∧ tree.locate "/r" = .ok ["r"] ∧ ignoreFiles tree "/r" {} = .ok [] ∧
      IsWanted tree ["r"] ["r"] {} [] ["z.py"] ∧ sourceFiles tree "/r" {} = .error .nameTooLong ∧
      Corpus.scan tree "/r" {} = .error .nameTooLong := by
  intro tree
  have hfault : sourceFiles tree "/r" {} = .error .nameTooLong := by
    have hvisit : IsVisit tree "/r" (entriesBelow tree "/r") := by decide +kernel
    exact hvisit.sourceFiles_eq_error (by decide +kernel)
  have hfile : tree.Reaches ["r"] ["z.py"] (.file []) :=
    (IsWellFormed.mem_below_iff_reaches (by decide +kernel)).mp (by decide +kernel)
  refine ⟨by decide +kernel, by decide +kernel, by decide +kernel, ⟨⟨[], hfile⟩, ?_,
    ?_, ?_⟩, hfault, ?_⟩
  · exact (admits_iff hfile.ne_nil).mp (by decide +kernel)
  · simp [Dropped]
  · exact matches_iff.mp (by decide +kernel)
  · rw [Corpus.scan, hfault]
    rfl

end Scan

end CodeAtlas
