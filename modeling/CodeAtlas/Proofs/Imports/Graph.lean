import CodeAtlas.Imports.Graph

/-! # Edges of the import graph

Each language resolves its imports in its own way, but never to a file outside of the corpus. So
the edges of the graph join files of the corpus, and whoever looks from their targets sees the
same edges.
-/
namespace CodeAtlas
open Text

/-! ## Where imports lead -/

namespace Imports
variable {files : List String} {path : String}

theorem Go.mem_of_mem_resolve {importPath : String} (h : path ∈ Go.resolve files importPath) :
    path ∈ files := by
  rw [Go.resolve, List.mem_mergeSort] at h
  exact (List.mem_filter.mp h).1

theorem Script.mem_of_resolve {importer specifier : String}
    (h : Script.resolve files importer specifier = some path) : path ∈ files := by
  rw [Script.resolve] at h
  split at h
  · simpa using List.find?_some h
  · cases h

namespace Python.Modules

theorem mem_of_lookup {module : String} (h : (ofFiles files).byName.lookup module = some path) :
    path ∈ files := by
  obtain ⟨front, back, hnames, -⟩ := List.lookup_eq_some_iff.mp h
  have hmem : (module, path) ∈ (ofFiles files).byName := by simp [hnames]
  obtain ⟨file, hfile, heq⟩ := List.mem_map.mp hmem
  obtain rfl : file = path := congrArg Prod.snd heq
  exact (List.mem_filter.mp hfile).1

theorem mem_of_find? {directory module : String}
    (h : (ofFiles files).find? directory module = some path) : path ∈ files := by
  rw [find?] at h
  split at h
  · cases h
  · rcases Option.or_eq_some_iff.mp h with h | ⟨-, h⟩
    · exact mem_of_lookup h
    · simpa [ofFiles] using List.find?_some h

theorem mem_of_mem_resolve {importer : String} {i : CodeAtlas.Python.Import}
    (h : path ∈ (ofFiles files).resolve importer i) : path ∈ files := by
  unfold resolve at h
  extract_lets base directory submodules at h
  split at h
  · obtain ⟨parts, -, hfind⟩ := List.exists_of_findSome?_eq_some (Option.mem_toList.mp h)
    exact mem_of_find? hfind
  · obtain ⟨name, -, hfind⟩ := List.mem_filterMap.mp h
    exact mem_of_find? hfind

end Python.Modules

end Imports

theorem Corpus.read_eq_some_iff {tree : FileTree} {c : Corpus} {path : String}
    {content : List UInt8} : (c.read tree path).value = some content ↔
    tree.read (c.fullPath path) = .ok content ∧ isBinary content = false := by
  unfold Corpus.read FileTree.readSource
  cases tree.read (c.fullPath path) with
  | error fault => simp [bind, Except.bind]
  | ok found =>
    cases hbinary : isBinary found with
    | true =>
      simp only [bind, Except.bind, pure, Except.pure, hbinary, if_true, Except.ok.injEq,
        reduceCtorEq, false_iff]
      rintro ⟨rfl, htext⟩
      exact absurd hbinary (by simp [htext])
    | false =>
      simp only [bind, Except.bind, pure, Except.pure, hbinary, Bool.false_eq_true, if_false,
        Option.some.injEq, Except.ok.injEq]
      exact ⟨fun h => ⟨h, h ▸ hbinary⟩, And.left⟩

namespace ImportGraph
variable {tree : FileTree} {c : Corpus} {p q : String}

theorem mem_of_mem_targets {files : List String} {content : List UInt8} {language : Language}
    (h : q ∈ targets files p content language) : q ∈ files := by
  cases language with
  | go =>
    obtain ⟨importPath, -, hq⟩ := List.mem_flatMap.mp h
    exact (List.mem_filter.mp (Imports.Go.mem_of_mem_resolve hq)).1
  | script =>
    obtain ⟨specifier, -, hq⟩ := List.mem_flatMap.mp h
    exact Imports.Script.mem_of_resolve (Option.mem_toList.mp hq)
  | python =>
    obtain ⟨i, -, hq⟩ := List.mem_flatMap.mp h
    exact Imports.Python.Modules.mem_of_mem_resolve hq

/-- The suffixes of the files of a language. -/
def Language.suffixes : Language → List String
  | .go => [".go"]
  | .script => Imports.Script.suffixes
  | .python => Imports.Python.suffixes

theorem Language.ofPath?_eq_some_iff {language : Language} :
    Language.ofPath? p = some language ↔ Path.suffix p ∈ language.suffixes := by
  simp only [Language.ofPath?]
  generalize Path.suffix p = suffix
  constructor
  · intro h
    split at h
    next hgo =>
      obtain rfl := Option.some.inj h
      simpa [Language.suffixes] using hgo
    next =>
      split at h
      next hscript =>
        obtain rfl := Option.some.inj h
        exact List.contains_iff_mem.mp hscript
      next =>
        obtain ⟨hpython, h⟩ := Option.ite_none_right_eq_some.mp h
        obtain rfl := Option.some.inj h
        exact List.contains_iff_mem.mp hpython
  · -- No suffix belongs to two languages, so that the order of the tests does not matter.
    revert suffix
    cases language <;> decide

/-! ## The inverse table

The table of importers is filled edge by edge, a set for each target. What is proved of one addition
holds of the whole table.
-/

section Inverse
variable {table : List (String × List String)}

theorem entryAt_addTo (key text : String) (table : List (String × List String)) (q : String) :
    entryAt (addTo key text table) q =
      if q = key then Ascending.insert text (entryAt table q) else entryAt table q := by
  induction table with
  | nil =>
    by_cases hq : q = key
    · simp [addTo, entryAt, hq, Ascending.insert]
    · have hbeq : (q == key) = false := by simpa using hq
      simp [addTo, entryAt, List.lookup_cons, hbeq, hq]
  | cons entry rest ih =>
    obtain ⟨other, texts⟩ := entry
    by_cases hother : other = key
    · subst hother
      by_cases hq : q = other
      · simp [addTo, entryAt, hq]
      · have hbeq : (q == other) = false := by simpa using hq
        simp [addTo, entryAt, List.lookup_cons, hbeq, hq]
    · by_cases hq : q = other
      · subst hq
        simp [addTo, entryAt, hother]
      · have hbeq : (q == other) = false := by simpa using hq
        simpa [addTo, entryAt, List.lookup_cons, hbeq, hother] using ih

/-- The sources of one file's imports: the file is added at each of its targets. -/
theorem mem_entryAt_addAll_iff {path : String} {targets : List String} :
    p ∈ entryAt (targets.foldl (fun table q => addTo q path table) table) q ↔
      p = path ∧ q ∈ targets ∨ p ∈ entryAt table q := by
  induction targets generalizing table with
  | nil => simp
  | cons target rest ih =>
    rw [List.foldl_cons, ih, entryAt_addTo, List.mem_cons]
    by_cases hq : q = target
    · rw [if_pos hq, Ascending.mem_insert]
      grind
    · rw [if_neg hq]
      grind

theorem mem_inverse_iff {edges : List (String × List String)} :
    p ∈ entryAt (inverse edges) q ↔ ∃ targets, (p, targets) ∈ edges ∧ q ∈ targets := by
  have hfold (table : List (String × List String)) : p ∈ entryAt (edges.foldl (fun table entry =>
      entry.2.foldl (fun table q => addTo q entry.1 table) table) table) q ↔
      (∃ targets, (p, targets) ∈ edges ∧ q ∈ targets) ∨ p ∈ entryAt table q := by
    induction edges generalizing table with
    | nil => simp
    | cons edge rest ih =>
      rw [List.foldl_cons, ih, mem_entryAt_addAll_iff]
      constructor
      · rintro (⟨targets, hmem, hq⟩ | ⟨rfl, hq⟩ | hp)
        · exact .inl ⟨targets, List.mem_cons_of_mem edge hmem, hq⟩
        · exact .inl ⟨edge.2, List.mem_cons_self, hq⟩
        · exact .inr hp
      · rintro (⟨targets, hmem, hq⟩ | hp)
        · rcases List.mem_cons.mp hmem with rfl | hmem
          · exact .inr (.inl ⟨rfl, hq⟩)
          · exact .inl ⟨targets, hmem, hq⟩
        · exact .inr (.inr hp)
  exact (hfold []).trans (or_iff_left List.not_mem_nil)

/-- Every set of a table is in ascending order. -/
def IsAscending (table : List (String × List String)) : Prop :=
  ∀ q, (entryAt table q).Pairwise (· < ·)

theorem IsAscending.addTo (h : IsAscending table) (key text : String) :
    IsAscending (addTo key text table) := by
  intro q
  rw [entryAt_addTo]
  split
  · exact Ascending.pairwise_insert (h q)
  · exact h q

theorem isAscending_inverse (edges : List (String × List String)) :
    IsAscending (inverse edges) := by
  have haddAll {table : List (String × List String)} (h : IsAscending table)
      (path : String) (targets : List String) :
      IsAscending (targets.foldl (fun table q => ImportGraph.addTo q path table) table) :=
    List.foldlRecOn targets _ h fun table h q _ => h.addTo q path
  exact List.foldlRecOn edges _ (fun q => List.Pairwise.nil) fun table h edge _ =>
    haddAll h edge.1 edge.2

end Inverse

/-! ## Edges -/

theorem importedBy_eq_some_iff {found : List String} : (importedBy tree c p).value = some found ↔
    ∃ language content, Path.suffix p ∈ Language.suffixes language ∧
      tree.read (c.fullPath p) = .ok content ∧ isBinary content = false ∧
      (targets c.paths p content language).filter (· != p) = found := by
  simp only [← Language.ofPath?_eq_some_iff]
  unfold importedBy
  cases Language.ofPath? p with
  | none => simp
  | some language => simp [Corpus.read_eq_some_iff, and_assoc]

theorem importsFrom_value (tree : FileTree) (c : Corpus) (paths : List String) :
    (importsFrom tree c paths).value = paths.filterMap fun path =>
      (importedBy tree c path).value.map (path, ·) := by
  induction paths with
  | nil => rfl
  | cons path rest ih =>
    rw [importsFrom, List.filterMap_cons, ← ih]
    simp only [Logged.value_bind, Logged.value_pure]
    cases (importedBy tree c path).value <;> rfl

theorem build_value (tree : FileTree) (c : Corpus) :
    (build tree c).value = ofEdges (build tree c).value.edges := rfl

theorem edges_build (tree : FileTree) (c : Corpus) : (build tree c).value.edges =
    c.paths.filterMap fun path => (importedBy tree c path).value.map fun found =>
      (path, Ascending.ofList found) := by
  simp [build, ofImports, ofEdges, importsFrom_value, List.map_filterMap, Option.map_map,
    Function.comp_def]

/-- A table with an entry for some of the paths, looked up at a path. -/
theorem lookup_filterMap {α : Type} (f : String → Option α) (paths : List String) :
    (paths.filterMap fun path => (f path).map (path, ·)).lookup p = if p ∈
      paths then f p else none := by
  induction paths with
  | nil => rfl
  | cons path rest ih =>
    rw [List.filterMap_cons]
    by_cases hp : p = path
    · subst hp
      cases hf : f p with
      | none => simpa [hf] using ih
      | some a => simp
    · have hbeq : (p == path) = false := by simpa using hp
      cases f path with
      | none => simpa [hp] using ih
      | some a => simpa [List.lookup_cons, hbeq, hp] using ih

theorem map_importedBy (tree : FileTree) (c : Corpus) (path : String) :
    (importedBy tree c path).value.map (fun found => (path, Ascending.ofList found)) =
      ((importedBy tree c path).value.map Ascending.ofList).map (path, ·) := by
  rw [Option.map_map]
  rfl

theorem importsOf_build (tree : FileTree) (c : Corpus) (p : String) :
    (build tree c).value.importsOf p =
    if p ∈ c.paths then Ascending.ofList ((importedBy tree c p).value.getD []) else [] := by
  simp only [importsOf, entryAt, edges_build, map_importedBy, lookup_filterMap]
  split
  · cases (importedBy tree c p).value <;> rfl
  · rfl

theorem mem_importsOf_build_iff : q ∈ (build tree c).value.importsOf p ↔
    p ∈ c.paths ∧ ∃ found, (importedBy tree c p).value = some found ∧ q ∈ found := by
  rw [importsOf_build]
  split
  next hp => cases (importedBy tree c p).value <;> simp [hp]
  next hp => simp [hp]

theorem mem_importersOf_build_iff : p ∈ (build tree c).value.importersOf q ↔
    p ∈ c.paths ∧ ∃ found, (importedBy tree c p).value = some found ∧ q ∈ found := by
  rw [importersOf, build_value, ofEdges, mem_inverse_iff, edges_build]
  constructor
  · rintro ⟨targets, hedge, hq⟩
    obtain ⟨path, hpath, hedge⟩ := List.mem_filterMap.mp hedge
    obtain ⟨found, hfound, hedge⟩ := Option.map_eq_some_iff.mp hedge
    obtain ⟨rfl, rfl⟩ := Prod.mk.inj hedge
    exact ⟨hpath, found, hfound, Ascending.mem_ofList.mp hq⟩
  · rintro ⟨hp, found, hfound, hq⟩
    refine ⟨Ascending.ofList found, List.mem_filterMap.mpr ⟨p, hp, ?_⟩, Ascending.mem_ofList.mpr hq⟩
    rw [hfound, Option.map_some]

/-- Resolving never leaves the corpus, so what a file imports needs no further test. -/
theorem exists_importedBy_iff : (∃ found, (importedBy tree c p).value = some found ∧ q ∈ found) ↔
    q ∈ c.paths ∧ q ≠ p ∧ ∃ language content, Path.suffix p ∈ Language.suffixes language ∧
      tree.read (c.fullPath p) = .ok content ∧ isBinary content = false ∧
        q ∈ targets c.paths p content language := by
  simp only [importedBy_eq_some_iff]
  constructor
  · rintro ⟨_, ⟨language, content, hlanguage, hread, htext, rfl⟩, hq⟩
    obtain ⟨hq, hne⟩ := List.mem_filter.mp hq
    exact ⟨mem_of_mem_targets hq, by simpa using hne, language, content, hlanguage, hread,
      htext, hq⟩
  · rintro ⟨-, hne, language, content, hlanguage, hread, htext, hq⟩
    exact ⟨_, ⟨language, content, hlanguage, hread, htext, rfl⟩,
      List.mem_filter.mpr ⟨hq, by simpa using hne⟩⟩

theorem pairwise_importsOf_build (tree : FileTree) (c : Corpus) (p : String) :
    ((build tree c).value.importsOf p).Pairwise (· < ·) := by
  rw [importsOf_build]
  split
  · exact Ascending.pairwise_ofList _
  · exact List.Pairwise.nil

/-- Imports and importers are two views of one set of edges, and both are listed in strictly
ascending order. An edge joins two different files of the corpus, of which the first is a text file
in a known language whose content leads to the second. -/
theorem build_dual_closed (tree : FileTree) (c : Corpus) :
    let graph := (build tree c).value
    (∀ p q, q ∈ graph.importsOf p ↔ p ∈ graph.importersOf q) ∧
    (∀ p, (graph.importsOf p).Pairwise (· < ·) ∧ (graph.importersOf p).Pairwise (· < ·)) ∧
    ∀ p q, q ∈ graph.importsOf p ↔ p ∈ c.paths ∧ q ∈ c.paths ∧ q ≠ p ∧
      ∃ language content, Path.suffix p ∈ Language.suffixes language ∧
        tree.read (c.fullPath p) = .ok content ∧ isBinary content = false ∧
        q ∈ targets c.paths p content language := by
  refine ⟨fun p q => ?_, fun p => ?_, fun p q => ?_⟩
  · rw [mem_importsOf_build_iff, mem_importersOf_build_iff]
  · exact ⟨pairwise_importsOf_build tree c p, isAscending_inverse _ p⟩
  · rw [mem_importsOf_build_iff, exists_importedBy_iff]

end ImportGraph
end CodeAtlas
