import CodeAtlas.Proofs.FileTree.Agreement
import CodeAtlas.Proofs.Scan.Visit

/-! # Enumeration and what is outside of the directory

Two trees agree below a directory and may differ elsewhere. Enumeration of the directory gives the
same for both as long as no link brings in what is outside: an ignore file is read through links,
and a link is followed to its end before it is left out, where a name that is too long is a fault.
Nothing else of the outside counts: what is not behind a link has the same path in both trees, and
so the same length.
-/
namespace CodeAtlas

theorem any_eq_of_perm {α : Type} {f g : α → Bool} {as bs : List α} (hperm : as.Perm bs)
    (h : ∀ a ∈ as, f a = g a) : as.any f = bs.any g := by
  rw [← hperm.any_eq, Bool.eq_iff_iff, List.any_eq_true, List.any_eq_true]
  apply exists_congr
  intro a
  apply and_congr_right
  intro hmem
  rw [h a hmem]

namespace Scan
open FileTree CodeAtlas.Path

/-- A path leads to a file of the same content in both trees, or to no file in both. -/
structure SameFile (tree tree' : FileTree) (path : String) : Prop where
  isTooLong_eq : tree.isTooLong path = tree'.isTooLong path
  read_eq : (tree.read path).toOption = (tree'.read path).toOption

/-- The links below the directory at a path, by their names from it on. -/
def links (tree : FileTree) (root : String) : List (List String) :=
  (entriesBelow tree root).filterMap fun
    | (names, .link _) => some names
    | _ => none

/-- What enumeration sees of the outside of a directory: the ignore files that links lead to, and
whether the way of a link has too long a name. -/
structure SameThroughLinks (tree tree' : FileTree) (l : Location) (root : String)
    (selection : Selection) : Prop where
  own : selection.nestedIgnore = false → tree.passesLink l [ignoreFileName] = true →
    SameFile tree tree' (join root ignoreFileName)
  named : selection.ignoreFile ≠ "" → tree.passesLink l (components selection.ignoreFile) = true →
    SameFile tree tree' (clean (join root selection.ignoreFile))
  ends : ∀ names ∈ links tree root,
    tree.isTooLong (pathBelow root names) = tree'.isTooLong (pathBelow root names)

theorem SameFile.ignoreFile?_eq {tree tree' : FileTree} {path : String}
    (h : SameFile tree tree' path) : ignoreFile? tree path = ignoreFile? tree' path := by
  have hread := h.read_eq
  rw [ignoreFile?, ignoreFile?, h.isTooLong_eq]
  cases hfirst : tree.read path <;> cases hsecond : tree'.read path <;> simp_all [Except.toOption]

section Isolation
variable {tree tree' : FileTree} {l l' : Location} {root : String} {selection : Selection}
  {names : List String}

/-- Two trees with a directory at the same path, which has the same in it. -/
structure SameDirectory (tree tree' : FileTree) (root : String) (l l' : Location) : Prop where
  wellFormed : tree.IsWellFormed
  wellFormed' : tree'.IsWellFormed
  locate_eq : tree.locate root = .ok l
  locate_eq' : tree'.locate root = .ok l'
  agree : AgreeBelow tree l tree' l'

theorem sameDirectory_of_entries (hl : l ≠ []) (htrees : tree.IsWellFormed ∧ tree'.IsWellFormed)
    (hlocate : tree.locate root = .ok l ∧ tree'.locate root = .ok l)
    (hentries : (∀ x ∈ tree.entries, l <+: x.1 → x ∈ tree'.entries) ∧ ∀ x ∈ tree'.entries,
      l <+: x.1 → x ∈ tree.entries) :
    SameDirectory tree tree' root l l :=
  ⟨htrees.1, htrees.2, hlocate.1, hlocate.2,
    agreeBelow_of_entries hl htrees.1 htrees.2 hentries.1 hentries.2⟩

theorem SameDirectory.entriesBelow_perm (h : SameDirectory tree tree' root l l') :
    (entriesBelow tree root).Perm (entriesBelow tree' root) := by
  rw [entriesBelow, entriesBelow, h.locate_eq, h.locate_eq']
  exact h.agree.below_perm h.wellFormed h.wellFormed'

/-- A path that passes no link below the directory leads to the same file. -/
theorem SameDirectory.sameFile {path : String} (h : SameDirectory tree tree' root l l')
    (hpath : components path = components root ++ names) (hnames : ∀ name ∈ names, IsEntryName name)
    (hlink : tree.passesLink l names = false) : SameFile tree tree' path := by
  have halike := h.agree.endAlike_locate h.locate_eq h.locate_eq' hpath hnames hlink
  exact ⟨halike.isTooLong_eq, congrArg Except.toOption (h.agree.read_eq halike)⟩

theorem components_pathBelow (hnames : ∀ name ∈ names, IsEntryName name) :
    components (pathBelow root names) = components root ++ names := by
  have hcomponent : ∀ name ∈ names, IsComponent name :=
    fun name hname => (hnames name hname).toIsComponent
  rw [pathBelow, components_join root (isAbsolute_ofPieces hcomponent),
    components_ofPieces hcomponent]

/-! ## Files and links below the directory -/

theorem exists_of_fileNames? {entry : List String × Entry} (h : fileNames? entry = some names) :
    ∃ content, entry = (names, .file content) := by
  obtain ⟨found, e⟩ := entry
  cases e with
  | file content =>
    obtain rfl := Option.some.inj h
    exact ⟨content, rfl⟩
  | directory => cases h
  | link target => cases h

theorem exists_of_mem_regularFiles (hroot : tree.locate root = .ok l)
    (h : names ∈ regularFiles tree root) : ∃ content, (names, .file content) ∈ tree.below l := by
  rw [(regularFiles_perm tree root).mem_iff, entriesBelow, hroot, List.mem_filterMap] at h
  obtain ⟨entry, hmem, hentry⟩ := h
  obtain ⟨content, rfl⟩ := exists_of_fileNames? hentry
  exact ⟨content, hmem⟩

theorem exists_of_mem_directories (hroot : tree.locate root = .ok l)
    (h : names ∈ directories tree root) : (names, .directory) ∈ tree.below l := by
  rw [directories, entriesBelow, hroot, List.mem_filterMap] at h
  obtain ⟨⟨found, e⟩, hmem, he⟩ := h
  cases e with
  | directory =>
    obtain rfl := Option.some.inj he
    exact hmem
  | file content => cases he
  | link target => cases he

theorem mem_links_of_mem_below {target : String} (hroot : tree.locate root = .ok l)
    (h : (names, .link target) ∈ tree.below l) : names ∈ links tree root := by
  rw [links, entriesBelow, hroot, List.mem_filterMap]
  exact ⟨(names, .link target), h, rfl⟩

theorem SameDirectory.sameFile_of_mem_regularFiles (h : SameDirectory tree tree' root l l')
    (hmem : names ∈ regularFiles tree root) : SameFile tree tree' (pathBelow root names) := by
  obtain ⟨content, hbelow⟩ := exists_of_mem_regularFiles h.locate_eq hmem
  have hnames : ∀ name ∈ names, IsEntryName name :=
    fun name => h.wellFormed.isEntryName_of_mem_below hbelow
  obtain ⟨-, hopens, hget⟩ := h.wellFormed.mem_below_iff.mp hbelow
  apply h.sameFile (components_pathBelow hnames) hnames
  apply passesLink_of_opensTo hopens
  simp [hget]

/-- The files come in one order, however the trees list them: different files have
different paths. -/
theorem SameDirectory.regularFiles_eq (h : SameDirectory tree tree' root l l') :
    regularFiles tree root = regularFiles tree' root := by
  apply mergeSort_eq_of_perm (trans_of_path ofPieces) (total_of_path ofPieces)
  · intro a b ha hb hab hba
    obtain ⟨content, ha⟩ :=
      exists_of_mem_regularFiles h.locate_eq ((regularFiles_perm tree root).mem_iff.mpr ha)
    obtain ⟨content', hb⟩ :=
      exists_of_mem_regularFiles h.locate_eq' ((regularFiles_perm tree' root).mem_iff.mpr hb)
    apply ofPieces_inj (h.wellFormed.mem_below_iff.mp ha).1 (h.wellFormed'.mem_below_iff.mp hb).1
    · exact fun name hname => (h.wellFormed.isEntryName_of_mem_below ha hname).slash
    · exact fun name hname => (h.wellFormed'.isEntryName_of_mem_below hb hname).slash
    · exact String.le_antisymm (of_decide_eq_true hab) (of_decide_eq_true hba)
  · exact h.entriesBelow_perm.filterMap _

/-- Everything is visited in one order, however the trees list it. -/
theorem SameDirectory.visited_eq (h : SameDirectory tree tree' root l l') :
    visited tree root = visited tree' root := by
  apply visited_eq_of_perm _ h.entriesBelow_perm
  rintro ⟨names, e⟩ ha ⟨names', e'⟩ hb rfl
  rw [entriesBelow, h.locate_eq] at ha
  rw [← h.entriesBelow_perm.mem_iff, entriesBelow, h.locate_eq] at hb
  have hget := (h.wellFormed.mem_below_iff.mp ha).2.2
  rw [(h.wellFormed.mem_below_iff.mp hb).2.2] at hget
  rw [Option.some.inj hget]

/-- Where directories lead, a path is too long in both trees or in neither, if that holds of the
links there. -/
theorem SameDirectory.isTooLong_eq (h : SameDirectory tree tree' root l l')
    (hlinks : SameThroughLinks tree tree' l root selection) (hne : names ≠ [])
    (hnames : ∀ name ∈ names, IsEntryName name) (hopens : tree.opensTo l names = true) :
    tree.isTooLong (pathBelow root names) = tree'.isTooLong (pathBelow root names) := by
  by_cases hlink : ∃ target, tree.get? (l ++ names) = some (.link target)
  · obtain ⟨target, hget⟩ := hlink
    have hbelow : (names, .link target) ∈ tree.below l :=
      h.wellFormed.mem_below_iff.mpr ⟨hne, hopens, hget⟩
    exact hlinks.ends names (mem_links_of_mem_below h.locate_eq hbelow)
  · have hpasses := passesLink_of_opensTo hopens (not_exists.mp hlink)
    exact (h.sameFile (components_pathBelow hnames) hnames hpasses).isTooLong_eq

theorem SameDirectory.wanted?_eq {files : List IgnoreFile} {entry : List String × Entry}
    (h : SameDirectory tree tree' root l l') (hlinks : SameThroughLinks tree tree' l root selection)
    (hentry : entry ∈ visited tree root) :
    wanted? tree root selection files entry = wanted? tree' root selection files entry := by
  rw [mem_visited, entriesBelow, h.locate_eq] at hentry
  obtain ⟨hne, hopens, -⟩ := h.wellFormed.mem_below_iff.mp hentry
  have hnames : ∀ name ∈ entry.1, IsEntryName name :=
    fun name => h.wellFormed.isEntryName_of_mem_below hentry
  rw [wanted?, wanted?, h.isTooLong_eq hlinks hne hnames hopens]

/-! ## Ignore files -/

theorem pathBelow_ignoreFileName (root : String) :
    pathBelow root [ignoreFileName] = join root ignoreFileName := rfl

theorem isEntryName_ignoreFileName : ∀ name ∈ [ignoreFileName], IsEntryName name := by decide

theorem SameDirectory.sameFile_ignoreFileName (h : SameDirectory tree tree' root l l')
    (hlink : tree.passesLink l [ignoreFileName] = false) :
    SameFile tree tree' (join root ignoreFileName) := by
  rw [← pathBelow_ignoreFileName]
  exact h.sameFile (components_pathBelow isEntryName_ignoreFileName)
    isEntryName_ignoreFileName hlink

/-- An ignore file is looked for where directories lead, and so found too long in both trees or
in neither. -/
theorem SameDirectory.any_passedOver_eq (h : SameDirectory tree tree' root l l')
    (hlinks : SameThroughLinks tree tree' l root selection) :
    (passedOver tree root selection).any tree.isTooLong =
      (passedOver tree' root selection).any tree'.isTooLong := by
  have hperm : ([] :: directories tree root).Perm ([] :: directories tree' root) :=
    (h.entriesBelow_perm.filterMap _).cons []
  have hreached (names : List String) (hmem : names ∈ [] :: directories tree root) :
      tree.opensTo l names = true ∧ (∀ name ∈ names, IsEntryName name) ∧
      (names = [] ∨ tree.get? (l ++ names) = some .directory) := by
    rcases List.mem_cons.mp hmem with rfl | hmem
    · exact ⟨rfl, by simp, .inl rfl⟩
    · have hbelow := exists_of_mem_directories h.locate_eq hmem
      obtain ⟨-, hopens, hget⟩ := h.wellFormed.mem_below_iff.mp hbelow
      exact ⟨hopens, fun name => h.wellFormed.isEntryName_of_mem_below hbelow, .inr hget⟩
  unfold passedOver
  split
  · rw [List.any_map, List.any_map]
    apply any_eq_of_perm hperm
    intro names hmem
    obtain ⟨hopens, hnames, hlast⟩ := hreached names hmem
    have hne : names ++ [ignoreFileName] ≠ [] :=
      List.append_ne_nil_of_right_ne_nil names (List.cons_ne_nil _ _)
    have hall : ∀ name ∈ names ++ [ignoreFileName], IsEntryName name :=
      List.forall_mem_append.mpr ⟨hnames, isEntryName_ignoreFileName⟩
    exact h.isTooLong_eq hlinks hne hall (opensTo_concat hopens hlast)
  · rw [List.any_nil, List.any_nil]

/-- The path of an ignore file that a configuration may name leads into the directory. -/
theorem components_named (root : String) (h : Config.staysInside selection.ignoreFile = true) :
    components (clean (join root selection.ignoreFile)) =
        components root ++ components selection.ignoreFile ∧
      ∀ name ∈ components selection.ignoreFile, IsEntryName name := by
  simp only [Config.staysInside, Bool.and_eq_true, Bool.not_eq_true'] at h
  constructor
  · rw [components_clean, components_join root h.1.1]
  · intro name hname
    refine ⟨isComponent_of_mem hname, ?_⟩
    rintro rfl
    simp [hname] at h

theorem mem_ignorePaths_cases {path : String} (h : path ∈ ignorePaths tree root selection) :
    (∃ names ∈ regularFiles tree root, path = pathBelow root names) ∨
      (selection.nestedIgnore = false ∧ path = join root ignoreFileName) ∨
      (selection.ignoreFile ≠ "" ∧ path = clean (join root selection.ignoreFile)) := by
  have hown : path ∈ (if selection.nestedIgnore then
        ((regularFiles tree root).filter isIgnoreFile).map (pathBelow root)
      else [join root ignoreFileName]) →
        (∃ names ∈ regularFiles tree root, path = pathBelow root names) ∨
        (selection.nestedIgnore = false ∧ path = join root ignoreFileName) := by
    cases selection.nestedIgnore with
    | true =>
      intro hmem
      obtain ⟨names, hnames, rfl⟩ := List.mem_map.mp hmem
      exact .inl ⟨names, List.mem_of_mem_filter hnames, rfl⟩
    | false => exact fun hmem => .inr ⟨rfl, List.mem_singleton.mp hmem⟩
  unfold ignorePaths at h
  cases hempty : selection.ignoreFile.isEmpty with
  | true =>
    rw [hempty, if_pos rfl] at h
    exact (hown h).imp_right .inl
  | false =>
    rw [hempty, if_neg Bool.false_ne_true] at h
    rcases List.mem_append.mp h with hmem | hmem
    · exact (hown hmem).imp_right .inl
    · exact .inr (.inr ⟨by simpa using hempty, List.mem_singleton.mp hmem⟩)

theorem SameDirectory.sameFile_of_mem_ignorePaths {path : String}
    (h : SameDirectory tree tree' root l l') (hlinks : SameThroughLinks tree tree' l root selection)
    (hinside : selection.ignoreFile = "" ∨ Config.staysInside selection.ignoreFile = true)
    (hpath : path ∈ ignorePaths tree root selection) : SameFile tree tree' path := by
  rcases mem_ignorePaths_cases hpath with ⟨names, hnames, rfl⟩ | ⟨hnested, rfl⟩ | ⟨hne, rfl⟩
  · exact h.sameFile_of_mem_regularFiles hnames
  · cases hlink : tree.passesLink l [ignoreFileName] with
    | false => exact h.sameFile_ignoreFileName hlink
    | true => exact hlinks.own hnested hlink
  · obtain ⟨hcomponents, hnames⟩ := components_named root (hinside.resolve_left hne)
    cases hlink : tree.passesLink l (components selection.ignoreFile) with
    | false => exact h.sameFile hcomponents hnames hlink
    | true => exact hlinks.named hne hlink

theorem SameDirectory.ignoreFiles_eq (h : SameDirectory tree tree' root l l')
    (hlinks : SameThroughLinks tree tree' l root selection)
    (hinside : selection.ignoreFile = "" ∨ Config.staysInside selection.ignoreFile = true) :
    ignoreFiles tree root selection = ignoreFiles tree' root selection := by
  have hpaths : ignorePaths tree root selection = ignorePaths tree' root selection := by
    rw [ignorePaths, ignorePaths, h.regularFiles_eq]
  rw [ignoreFiles, ignoreFiles, h.any_passedOver_eq hlinks, ← hpaths]
  congr 1
  apply filterMapM_congr
  intro path hpath
  exact (h.sameFile_of_mem_ignorePaths hlinks hinside hpath).ignoreFile?_eq

/-- Enumeration of a directory is the same in two trees which agree below it, as far as they agree
behind its links: only an ignore file that is reached through a link, and a name that is too long on
the way of a link, bring in what is outside. -/
theorem sourceFiles_eq_of_sameDirectory (h : SameDirectory tree tree' root l l')
    (hlinks : SameThroughLinks tree tree' l root selection)
    (hinside : selection.ignoreFile = "" ∨ Config.staysInside selection.ignoreFile = true) :
    sourceFiles tree root selection = sourceFiles tree' root selection := by
  rw [sourceFiles, sourceFiles, h.ignoreFiles_eq hlinks hinside, ← h.visited_eq]
  congr 1
  funext files
  rw [filterMapM_congr fun entry hentry => h.wanted?_eq hlinks hentry]

end Isolation

/-- A directory whose ignore file is a link in it, beside a link to what is next to the
directory. -/
def sharedTree (outside : Entry) : FileTree :=
  ⟨[(["out"], outside), (["r"], .directory), (["r", ".gitignore"], .link "rules"),
    (["r", "a.py"], .file []), (["r", "b.py"], .file []), (["r", "out"], .link "../out"),
    (["r", "rules"], .file (Text.Utf8.encode "a.py\n".toList))]⟩

/-- The same files, whether the link out of the directory leads to a file or to another
directory. -/
theorem sourceFiles_eq_of_sameDirectory_shared :
    let tree := sharedTree (.file [])
    let tree' := sharedTree .directory
    SameDirectory tree tree' "/r" ["r"] ["r"] ∧ SameThroughLinks tree tree' ["r"] "/r" {} ∧
      sourceFiles tree "/r" {} = .ok ["b.py", "rules"] ∧
        sourceFiles tree' "/r" {} = .ok ["b.py", "rules"] := by
  intro tree tree'
  have hdirectory : SameDirectory tree tree' "/r" ["r"] ["r"] := by
    apply sameDirectory_of_entries <;> decide +kernel
  have hlinks : SameThroughLinks tree tree' ["r"] "/r" {} := by
    refine ⟨fun _ _ => ⟨by decide +kernel, by decide +kernel⟩,
      fun h => absurd rfl h, by decide +kernel⟩
  have hfound : sourceFiles tree "/r" {} = .ok ["b.py", "rules"] := by
    have hvisit : IsVisit tree "/r" (entriesBelow tree "/r") := by decide +kernel
    exact hvisit.sourceFiles_eq_ok (by decide +kernel) (.refl _) (by decide +kernel)
  exact ⟨hdirectory, hlinks, hfound,
    (sourceFiles_eq_of_sameDirectory hdirectory hlinks (.inl rfl)).symm.trans hfound⟩

/-- A directory with a link to what is next to it, and with a file. -/
def linkedTree (name : String) (outside : Entry) : FileTree :=
  ⟨[(["out"], outside), (["r"], .directory), (["r", name], .link "../out"),
    (["r", "z.py"], .file [])]⟩

/-- What is next to the directory decides over its files: as its ignore file, as the ignore file
that is asked for, and by the name that it leads on to. -/
theorem sourceFiles_ne_of_outside :
    let rules := Entry.file (Text.Utf8.encode "z.py\n".toList)
    let long := Entry.link (String.ofList (List.replicate 256 'a'))
    (SameDirectory (linkedTree ".gitignore" rules) (linkedTree ".gitignore" .directory) "/r" ["r"]
      ["r"] ∧ sourceFiles (linkedTree ".gitignore" rules) "/r" {} = .ok [] ∧
      sourceFiles (linkedTree ".gitignore" .directory) "/r" {} = .ok ["z.py"]) ∧
    (SameDirectory (linkedTree "ignore" rules) (linkedTree "ignore" .directory) "/r" ["r"] ["r"] ∧
      sourceFiles (linkedTree "ignore" rules) "/r" { ignoreFile := "ignore" } = .ok [] ∧
      sourceFiles (linkedTree "ignore" .directory) "/r" { ignoreFile := "ignore" } = .ok ["z.py"]) ∧
    (SameDirectory (linkedTree "a.py" long) (linkedTree "a.py" .directory) "/r" ["r"] ["r"] ∧
      sourceFiles (linkedTree "a.py" long) "/r" {} = .error .nameTooLong ∧
      sourceFiles (linkedTree "a.py" .directory) "/r" {} = .ok ["z.py"]) := by
  intro rules long
  have hvisit (name : String) (hname : name ∈ [".gitignore", "ignore", "a.py"]) (outside : Entry)
      (houtside : outside ∈ [rules, long, .directory]) :
      IsVisit (linkedTree name outside) "/r" (entriesBelow (linkedTree name outside) "/r") := by
    revert name outside
    decide +kernel
  refine ⟨⟨?_, ?_, ?_⟩, ⟨?_, ?_, ?_⟩, ?_, ?_, ?_⟩
  case refine_1 | refine_4 | refine_7 => apply sameDirectory_of_entries <;> decide +kernel
  case refine_8 =>
    exact (hvisit "a.py" (by decide) long (by decide +kernel)).sourceFiles_eq_error
      (by decide +kernel)
  case refine_2 =>
    exact (hvisit ".gitignore" (by decide) rules (by decide +kernel)).sourceFiles_eq_ok
      (by decide +kernel) (.refl []) .nil
  case refine_5 =>
    exact (hvisit "ignore" (by decide) rules (by decide +kernel)).sourceFiles_eq_ok
      (by decide +kernel) (.refl []) .nil
  all_goals
    exact (hvisit _ (by decide) .directory (by decide +kernel)).sourceFiles_eq_ok
      (by decide +kernel) (.refl ["z.py"]) (by decide +kernel)

end Scan

end CodeAtlas
