import CodeAtlas.Proofs.Corpus.Text
import CodeAtlas.Proofs.Impact.WellFormed
import CodeAtlas.Proofs.References.IndexHint

/-! # Queries see text files only

Two trees may differ in the files that are no text and in those outside of the corpus. All that a
query about names takes from a tree is the text of the files of the corpus, so its answer is the
same in both. And what an answer points at is in one of these files, wherever a hint may lead.
-/
namespace CodeAtlas
open Text References Impact

/-- There is no text at a path: it cannot be read, or it is binary. -/
def FileTree.NonText (tree : FileTree) (path : String) : Prop :=
  ∀ content, tree.read path = .ok content → isBinary content = true

/-- A path has the same content in two trees, or no text in both. -/
def FileTree.SameText (tree tree' : FileTree) (path : String) : Prop :=
  (∃ content, tree.read path = .ok content ∧ tree'.read path = .ok content) ∨
    (tree.NonText path ∧ tree'.NonText path)

instance (tree : FileTree) (path : String) : Decidable (tree.NonText path) :=
  decidable_of_iff ((tree.read path).toOption.all isBinary = true) (by
    unfold FileTree.NonText
    cases tree.read path <;> simp [Except.toOption])

instance (tree tree' : FileTree) (path : String) : Decidable (tree.SameText tree' path) :=
  decidable_of_iff (((tree.read path).toOption.isSome = true ∧ tree'.read path = tree.read path) ∨
      (tree.NonText path ∧ tree'.NonText path)) (by
    refine or_congr_left ?_
    cases tree.read path <;> simp [Except.toOption])

/-- All that two trees have for a corpus is the same. -/
def Corpus.SameTexts (tree tree' : FileTree) (c : Corpus) : Prop :=
  ∀ path ∈ c.paths, c.text? tree path = c.text? tree' path

/-- A text file of a corpus. -/
def Corpus.IsTextFile (tree : FileTree) (c : Corpus) (path : String) : Prop :=
  path ∈ c.paths ∧ ¬ tree.NonText (c.fullPath path)

/-! ## Texts -/

namespace Corpus
variable {tree tree' : FileTree} {c : Corpus} {path : String}

theorem text?_eq_none_iff : c.text? tree path = none ↔ tree.NonText (c.fullPath path) := by
  rw [Option.eq_none_iff_forall_ne_some]
  apply forall_congr'
  intro content
  rw [ne_eq, text?_eq_some_iff, not_and, Bool.not_eq_false]

theorem isTextFile_of_text? {content : List UInt8} (hmem : path ∈ c.paths)
    (h : c.text? tree path = some content) : c.IsTextFile tree path := by
  refine ⟨hmem, fun hnone => ?_⟩
  rw [text?_eq_none_iff.mpr hnone] at h
  cases h

theorem text?_eq_of_sameText (h : tree.SameText tree' (c.fullPath path)) :
    c.text? tree path = c.text? tree' path := by
  rcases h with ⟨content, hread, hread'⟩ | ⟨hnone, hnone'⟩
  · rw [text?, text?, hread, hread']
  · rw [text?_eq_none_iff.mpr hnone, text?_eq_none_iff.mpr hnone']

theorem readText_value : (c.readText tree path).value = (c.text? tree path).map Utf8.decode := by
  rw [readText, Logged.value_bind, read_value, Logged.value_pure]

end Corpus

/-! ## Where answers lie -/

section Places
variable {tree : FileTree} {c : Corpus} {hint : Hint} {name : String} {limit : Int} {m : Mention}

theorem isTextFile_of_mem_occurrences {l : SourceLine} (h : l ∈ occurrences tree c name) :
    c.IsTextFile tree l.path := by
  obtain ⟨hmem, text, htext, -⟩ := mem_corpusLines.mp ((mem_occurrences tree c name).mp h).1
  rw [Corpus.readText_value] at htext
  obtain ⟨content, hcontent, -⟩ := Option.map_eq_some_iff.mp htext
  exact Corpus.isTextFile_of_text? hmem hcontent

theorem isTextFile_of_definition (h : (search tree c name limit hint).value.definition = some m) :
    c.IsTextFile tree m.path := by
  by_cases hname : name = ""
  · rw [hname, search_empty] at h
    cases h
  · rw [search_definition_eq limit hname] at h
    obtain ⟨l, hl, rfl⟩ := Option.map_eq_some_iff.mp h
    exact isTextFile_of_mem_occurrences (mem_occurrences_of_definitionOf hl)

theorem isTextFile_of_mem_allReferences (h : m ∈ allReferences tree c hint name) :
    c.IsTextFile tree m.path := by
  by_cases hname : name = ""
  · rw [hname, allReferences_empty] at h
    cases h
  · rw [allReferences_eq tree c hint name hname] at h
    obtain ⟨l, hl, rfl⟩ := List.mem_map.mp h
    exact isTextFile_of_mem_occurrences (List.mem_of_mem_filter hl)

theorem isTextFile_of_mem_references (h : m ∈ (search tree c name limit hint).value.references) :
    c.IsTextFile tree m.path := by
  rw [search_references] at h
  exact isTextFile_of_mem_allReferences (List.mem_of_mem_take h)

theorem isTextFile_of_mem_entries {e : IndexEntry} (h : e ∈ (Index.build tree c).value.entries) :
    c.IsTextFile tree e.path := by
  rw [Index.entries_build] at h
  obtain ⟨path, hmem, he⟩ := List.mem_flatMap.mp h
  obtain ⟨symbol, hsymbol, rfl⟩ := List.mem_map.mp he
  refine ⟨hmem, fun hnone => ?_⟩
  rw [Corpus.outline, Corpus.text?_eq_none_iff.mpr hnone] at hsymbol
  cases hsymbol

theorem isTextFile_of_mem_importersOf {path importer : String}
    (h : importer ∈ (ImportGraph.build tree c).value.importersOf path) :
    c.IsTextFile tree importer := by
  obtain ⟨hmem, found, hfound, -⟩ := ImportGraph.mem_importersOf_build_iff.mp h
  refine ⟨hmem, fun hnone => ?_⟩
  rw [ImportGraph.importedBy_value, ImportGraph.importsIn?,
    Corpus.text?_eq_none_iff.mpr hnone] at hfound
  obtain ⟨language, -, hnothing⟩ := Option.bind_eq_some_iff.mp hfound
  cases hnothing

theorem isTextFile_of_mem_nameSites {site : Site} {k : Nat}
    (h : site ∈ nameSites tree c hint name k) : c.IsTextFile tree site.file := by
  obtain ⟨m, hm, rfl⟩ := List.mem_map.mp h
  obtain ⟨other, -, hm⟩ := List.mem_flatMap.mp hm
  exact isTextFile_of_mem_allReferences hm

/-- The files of the layers behind a file import one another, and only text is known to import
something. -/
theorem isTextFile_of_mem_fileSites {path : String} {site : Site} {k : Nat}
    (h : site ∈ fileSites (ImportGraph.build tree c).value.importersOf path (k + 1)) :
    c.IsTextFile tree site.file := by
  obtain ⟨file, hfile, rfl⟩ := List.mem_map.mp h
  rw [Distance.level_succ] at hfile
  obtain ⟨imported, -, himporter⟩ := List.mem_flatMap.mp (Distance.mem_fresh.mp hfile).1
  exact isTextFile_of_mem_importersOf himporter

/-- The sites of an answer are among those of all depths from one on. -/
theorem exists_of_mem_keepSites {labelAt : Nat → String} {sites : Nat → List Site}
    {limit count : Nat} {layer : Layer} {site : Site}
    (hlayer : layer ∈ keepSites limit (layersFrom labelAt sites 1 count))
    (hsite : site ∈ layer.sites) : ∃ k, site ∈ sites (k + 1) := by
  have hmem := List.mem_flatMap.mpr ⟨layer, hlayer, hsite⟩
  rw [flatMap_sites_keepSites, flatMap_sites_layersFrom] at hmem
  obtain ⟨k, hk, hsite⟩ := List.mem_flatMap.mp (List.mem_of_mem_take hmem)
  obtain ⟨j, -, rfl⟩ := List.mem_range'.mp hk
  exact ⟨j, by simpa [Nat.add_comm] using hsite⟩

theorem isTextFile_of_analyze {target : String} {depth : Int}
    {importersOf : Option (String → List String)} {i : Impact}
    (hmode : isFileTarget target = false ∨ importersOf = none)
    (h : (analyze tree c target depth limit hint importersOf).value = .ok i) {layer : Layer}
    (hlayer : layer ∈ i.layers) {site : Site} (hsite : site ∈ layer.sites) :
    c.IsTextFile tree site.file := by
  cases hfile : isFileTarget target with
  | false =>
    rw [analyze_name hfile] at h
    obtain rfl := Except.ok.inj h
    obtain ⟨k, hk⟩ := exists_of_mem_keepSites hlayer hsite
    exact isTextFile_of_mem_nameSites hk
  | true =>
    obtain rfl := hmode.resolve_left (by simp [hfile])
    obtain ⟨path, hmem, hpath⟩ := hasAnswer_of_analyze h hfile
    rw [analyze_file hfile hpath hmem, ofFile_eq] at h
    obtain rfl := Except.ok.inj h
    obtain ⟨k, hk⟩ := exists_of_mem_keepSites hlayer hsite
    exact isTextFile_of_mem_fileSites hk

end Places

/-! ## Answers in two trees -/

namespace Corpus.SameTexts
variable {tree tree' : FileTree} {c : Corpus} (h : c.SameTexts tree tree')
include h

theorem outline_eq {path : String} (hmem : path ∈ c.paths) :
    c.outline tree path = c.outline tree' path := by
  rw [outline, outline, h path hmem]

theorem index_eq : (Index.build tree c).value = (Index.build tree' c).value := by
  apply congrArg Index.mk
  rw [Index.entriesOf_value, Index.entriesOf_value]
  apply List.flatMap_congr
  intro path hmem
  rw [h.outline_eq hmem]

theorem graph_eq : (ImportGraph.build tree c).value = (ImportGraph.build tree' c).value := by
  have hedges :
      (ImportGraph.build tree c).value.edges = (ImportGraph.build tree' c).value.edges := by
    rw [ImportGraph.edges_build, ImportGraph.edges_build]
    apply List.filterMap_congr
    intro path hmem
    rw [ImportGraph.importedBy_value, ImportGraph.importedBy_value, ImportGraph.importsIn?,
      ImportGraph.importsIn?, h path hmem]
  rw [ImportGraph.build_value tree c, hedges, ← ImportGraph.build_value]

theorem corpusLines_eq : corpusLines tree c = corpusLines tree' c := by
  apply List.flatMap_congr
  intro path hmem
  rw [fileLines, fileLines, readText_value, readText_value, h path hmem]

variable (hint : Hint)

theorem definitionOf_eq (name : String) :
    definitionOf tree c hint name = definitionOf tree' c hint name := by
  simp only [definitionOf, hintedLine, occurrences, h.corpusLines_eq]

theorem referencesOf_eq (name : String) :
    referencesOf tree c hint name = referencesOf tree' c hint name := by
  simp only [referencesOf, occurrences, h.corpusLines_eq, h.definitionOf_eq]

theorem search_eq (name : String) (limit : Int) :
    (search tree c name limit hint).value = (search tree' c name limit hint).value := by
  by_cases hname : name = ""
  · rw [hname, search_empty, search_empty]
  · rw [search_value tree c hint name hname, search_value tree' c hint name hname]
    simp only [files_request, h.definitionOf_eq, h.referencesOf_eq]

theorem allReferences_eq (name : String) :
    allReferences tree c hint name = allReferences tree' c hint name := by
  rw [allReferences, allReferences, h.corpusLines_eq, h.search_eq]

theorem around_eq {m : Mention} (hmem : m.path ∈ c.paths) : around tree c m = around tree' c m := by
  rw [around, around, symbols_value, symbols_value, h.outline_eq hmem]

theorem annotate_eq {m : Mention} (hmem : m.path ∈ c.paths) :
    annotate tree c m = annotate tree' c m := by
  rw [annotate, annotate, h.around_eq hmem]

theorem leadsTo_eq : leadsTo tree c hint = leadsTo tree' c hint := by
  funext name
  rw [leadsTo, leadsTo, ← h.allReferences_eq]
  apply List.filterMap_congr
  intro m hm
  rw [h.around_eq (path_mem_of_mem_allReferences tree c hint name hm)]

theorem nameSites_eq (name : String) :
    nameSites tree c hint name = nameSites tree' c hint name := by
  funext k
  have hreferences : referencesAt tree c hint name k = referencesAt tree' c hint name k := by
    rw [referencesAt, referencesAt, ← h.leadsTo_eq]
    apply List.flatMap_congr
    intro other _
    rw [h.allReferences_eq]
  rw [nameSites, nameSites, ← hreferences]
  apply List.map_congr_left
  intro m hm
  obtain ⟨other, -, hm⟩ := List.mem_flatMap.mp hm
  rw [h.annotate_eq (path_mem_of_mem_allReferences tree c hint other hm)]

theorem nameTarget_eq (name : String) :
    nameTarget tree c hint name = nameTarget tree' c hint name := by
  rw [nameTarget, nameTarget, ← h.search_eq]
  cases hdefinition : (search tree c name 0 hint).value.definition with
  | none => rfl
  | some d =>
    have hmem := (isTextFile_of_definition hdefinition).1
    simp only [Lookup.target, Logged.value_bind, Logged.value_pure, symbolsOnce_value,
      lookupIn_symbols hmem, symbols_value, h.outline_eq hmem]

theorem analyze_eq {target : String} (htarget : isFileTarget target = false) (depth limit : Int)
    (importersOf : Option (String → List String)) :
    (analyze tree c target depth limit hint importersOf).value =
      (analyze tree' c target depth limit hint importersOf).value := by
  rw [analyze_name htarget, analyze_name htarget, h.nameTarget_eq, nameLayers,
    nameLayers, h.nameSites_eq]

end Corpus.SameTexts

/-- Queries about names take nothing from a tree but the text files of the corpus, and all that they
point at is there. -/
theorem answers_from_text (tree : FileTree) (c : Corpus) :
    (∀ tree', (∀ path ∈ c.paths, tree.SameText tree' (c.fullPath path)) →
      (Index.build tree c).value = (Index.build tree' c).value ∧
      (ImportGraph.build tree c).value = (ImportGraph.build tree' c).value ∧
      (∀ name limit hint, (search tree c name limit hint).value =
        (search tree' c name limit hint).value) ∧
      ∀ target depth limit hint importersOf, isFileTarget target = false →
        (analyze tree c target depth limit hint importersOf).value =
          (analyze tree' c target depth limit hint importersOf).value) ∧
    (∀ e ∈ (Index.build tree c).value.entries, c.IsTextFile tree e.path) ∧
    (∀ name limit hint, (∀ d, (search tree c name limit hint).value.definition = some d →
      c.IsTextFile tree d.path) ∧ ∀ m ∈ (search tree c name limit hint).value.references,
      c.IsTextFile tree m.path) ∧
    ∀ target depth limit hint importersOf i, isFileTarget target = false ∨ importersOf = none →
      (analyze tree c target depth limit hint importersOf).value = .ok i →
      ∀ layer ∈ i.layers, ∀ site ∈ layer.sites, c.IsTextFile tree site.file := by
  refine ⟨fun tree' hsame => ?_, fun e => isTextFile_of_mem_entries, fun name limit hint => ?_, ?_⟩
  · have h : c.SameTexts tree tree' :=
      fun path hmem => Corpus.text?_eq_of_sameText (hsame path hmem)
    refine ⟨h.index_eq, h.graph_eq, fun name limit hint => h.search_eq hint name limit, ?_⟩
    intro target depth limit hint importersOf htarget
    exact h.analyze_eq hint htarget depth limit importersOf
  · exact ⟨fun d => isTextFile_of_definition, fun m => isTextFile_of_mem_references⟩
  · intro target depth limit hint importersOf i hmode hanswer layer hlayer site hsite
    exact isTextFile_of_analyze hmode hanswer hlayer hsite

/-- Two text files, with something else between them and behind them. -/
def textTree (between behind : FileTree.Entry) : FileTree :=
  ⟨[(["r"], .directory), (["r", "a.py"], .file (Utf8.encode "def f():\n    pass\n".toList)),
    (["r", "b.py"], between), (["r", "c.py"], .file (Utf8.encode "def g():\n    f()\n".toList)),
    (["r", "d.py"], behind)]⟩

/-- A binary file that calls the function, beside a file outside of the corpus that does so too,
against a directory and no text. The hint leads to the binary file. -/
theorem answers_from_text_noise :
    let calls := Utf8.encode "f()\n".toList
    let tree := textTree (.file (calls ++ [0])) (.file calls)
    let tree' := textTree .directory (.file [])
    let c := Corpus.ofPaths "/r" ["a.py", "b.py", "c.py"]
    let hint : Hint := fun _ => some ("b.py", 1)
    (∀ path ∈ c.paths, tree.SameText tree' (c.fullPath path)) ∧ isFileTarget "f" = false ∧
      ∃ i, (analyze tree c "f" 2 9 hint none).value = .ok i ∧
        (analyze tree' c "f" 2 9 hint none).value = .ok i ∧
        i.layers.flatMap (·.sites) = [⟨"c.py", 2, "f()", "g"⟩] ∧ ∀ layer ∈ i.layers,
        ∀ site ∈ layer.sites, c.IsTextFile tree site.file := by
  intro calls tree tree' c hint
  have hsame : ∀ path ∈ c.paths, tree.SameText tree' (c.fullPath path) := by decide +kernel
  let i : Impact :=
    { target := ⟨"f", "a.py", 1, "func"⟩
      layers := [⟨1, "direct references", [⟨"c.py", 2, "f()", "g"⟩]⟩]
      summary := ⟨1, 1, 1⟩ }
  have hanswer : (analyze tree c "f" 2 9 hint none).value = .ok i := by decide +kernel
  obtain ⟨hequal, -, -, hsites⟩ := answers_from_text tree c
  have hother := (hequal tree' hsame).2.2.2 "f" 2 9 hint none (by decide)
  refine ⟨hsame, by decide, i, hanswer, hother.symm.trans hanswer, rfl, ?_⟩
  exact hsites "f" 2 9 hint none i (.inr rfl) hanswer

end CodeAtlas
