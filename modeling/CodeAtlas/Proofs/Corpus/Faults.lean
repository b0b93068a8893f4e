import CodeAtlas.Proofs.Corpus.Text
import CodeAtlas.Proofs.Impact.Truncation
import CodeAtlas.Proofs.References.IndexHint

/-! # Faults of queries

No content of a file keeps a query from its answer: what cannot be read or parsed is passed over. An
analysis refuses a target for two reasons only: it is a file outside of the corpus, or its path
cannot be worked out because a link leads back to itself. A limit on nested calls is left out: links
and pointer types inside of one another are followed to any depth.
-/
namespace CodeAtlas
open Text

theorem FileTree.walkWith_ne_tooManyLinks {tree : FileTree}
    {follow : Location → List String → Except Fault Location}
    (h : ∀ l target, tree.get? l ≠ some (.link target)) (l : Location) (pieces : List String) :
    tree.walkWith follow l pieces ≠ .error .tooManyLinks := by
  induction pieces generalizing l with
  | nil => simp [walkWith]
  | cons name rest ih =>
    unfold walkWith
    split_ifs with hdirectory hempty hdots hlong
    · simp
    · exact ih l
    · exact ih l.dropLast
    · simp
    · cases hget : tree.get? (l ++ [name]) with
      | none => simp
      | some e =>
        cases e with
        | link target => exact absurd hget (h _ target)
        | file content => exact ih (l ++ [name])
        | directory => exact ih (l ++ [name])

/-- Too many links are a fault of trees with links. -/
theorem FileTree.locate_ne_tooManyLinks {tree : FileTree}
    (h : ∀ x ∈ tree.entries, ∀ target, x.2 ≠ .link target) (path : String) :
    tree.locate path ≠ .error .tooManyLinks := by
  have hget (l : Location) (target : String) : tree.get? l ≠ some (.link target) := by
    unfold get?
    split_ifs with hempty
    · simp
    · intro hlookup
      obtain ⟨front, back, hentries, -⟩ := List.lookup_eq_some_iff.mp hlookup
      exact h (l, .link target) (by simp [hentries]) target rfl
  unfold locate
  split_ifs with hnul hlong
  · simp
  · simp
  · exact walkWith_ne_tooManyLinks hget [] (Path.components path)

theorem FileTree.exists_locate_of_resolve? {tree : FileTree} {path : String}
    (h : tree.resolve? path = none) : ∃ left, tree.locate left = .error .tooManyLinks := by
  unfold resolve? at h
  split at h
  · cases h
  next left _ =>
    refine ⟨Path.normalize left, ?_⟩
    split at h
    next hlocate => exact hlocate
    next => cases h

theorem Corpus.relativize_eq_error_iff {tree : FileTree} {c : Corpus} {target : String} :
    c.relativize tree target = .error .linkLoop ↔ Path.isAbsolute target = true ∧
      '\x00' ∉ target.toList ∧ (tree.resolve? target = none ∨ tree.resolve? c.root = none) := by
  unfold relativize
  split_ifs with habsolute hnul
  · simp [habsolute, List.contains_iff_mem.mp hnul]
  · have hnul : '\x00' ∉ target.toList := by simpa using hnul
    cases htarget : tree.resolve? target with
    | none => simp [habsolute, hnul]
    | some l =>
      cases hroot : tree.resolve? c.root with
      | none => simp [habsolute, hnul]
      | some root =>
        simp only [reduceCtorEq, or_self, and_false, iff_false]
        split_ifs <;> simp
  · simp [habsolute]

namespace Impact
open References

/-- The targets that an analysis refuses, and why. -/
inductive Refuses (tree : FileTree) (c : Corpus) (target : String) : Fault → Prop
  | notIndexed {path : String} : isFileTarget target = true → c.relativize tree target = .ok path →
      path ∉ c.paths →
    Refuses tree c target (.notIndexed path)
  | linkLoop : isFileTarget target = true → Path.isAbsolute target = true → '\x00' ∉ target.toList →
    tree.resolve? target = none ∨ tree.resolve? c.root = none →
      Refuses tree c target (.path .linkLoop)

section Refusal
variable {tree : FileTree} {c : Corpus} {target : String} {hint : Hint}
  {importersOf : Option (String → List String)} {depth limit : Int}

theorem hasAnswer_or_refuses (tree : FileTree) (c : Corpus) (target : String) :
    HasAnswer tree c target ∨ ∃ e, Refuses tree c target e := by
  cases hfile : isFileTarget target with
  | false => exact .inl fun h => by simp [hfile] at h
  | true =>
    cases hpath : c.relativize tree target with
    | error fault =>
      obtain ⟨habsolute, hnul, hresolve⟩ := Corpus.relativize_eq_error_iff.mp hpath
      exact .inr ⟨_, .linkLoop hfile habsolute hnul hresolve⟩
    | ok path =>
      by_cases hmem : path ∈ c.paths
      · exact .inl fun _ => ⟨path, hmem, hpath⟩
      · exact .inr ⟨_, .notIndexed hfile hpath hmem⟩

theorem analyze_of_refuses {e : Fault} (h : Refuses tree c target e) :
    (analyze tree c target depth limit hint importersOf).value = .error e := by
  unfold analyze
  cases h with
  | @notIndexed path hfile hpath hmem =>
    have hcontains : c.paths.contains path = false := by simpa using hmem
    simp only [hfile, if_true, hpath, hcontains, Bool.not_false]
    rfl
  | linkLoop hfile habsolute hnul hresolve =>
    have hpath := Corpus.relativize_eq_error_iff.mpr ⟨habsolute, hnul, hresolve⟩
    simp only [hfile, if_true, hpath]
    rfl

theorem analyze_eq_error_iff {e : Fault} :
    (analyze tree c target depth limit hint importersOf).value = .error e ↔
      Refuses tree c target e := by
  constructor
  · intro h
    rcases hasAnswer_or_refuses tree c target with hanswer | ⟨e', hrefuses⟩
    · obtain ⟨t, labelAt, sites, -, hanalyze⟩ := exists_unbounded hanswer hint importersOf
      cases (hanalyze depth limit).symm.trans h
    · obtain rfl := Except.error.inj ((analyze_of_refuses hrefuses).symm.trans h)
      exact hrefuses
  · exact analyze_of_refuses

/-- A name that occurs nowhere has no layers. -/
theorem layers_of_absent (htarget : isFileTarget target = false)
    (habsent : ∀ l ∈ corpusLines tree c, ¬ Occurs target.toList l.text) :
    ∃ i, (analyze tree c target depth limit hint importersOf).value = .ok i ∧ i.layers = [] := by
  have hreferences : allReferences tree c hint target = [] := by
    by_cases hname : target = ""
    · rw [hname, allReferences_empty]
    · have hoccurrences : occurrences tree c target = [] := by
        rw [List.eq_nil_iff_forall_not_mem]
        intro l hl
        obtain ⟨hline, hoccurs⟩ := (mem_occurrences tree c target).mp hl
        exact habsent l hline hoccurs
      rw [allReferences_eq tree c hint target hname, referencesOf, hoccurrences]
      rfl
  have hsites : nameSites tree c hint target 1 = [] := by
    rw [nameSites, referencesAt_succ, Distance.level_zero, List.flatMap_singleton, hreferences]
    rfl
  refine ⟨_, analyze_name htarget depth limit importersOf, ?_⟩
  rw [nameLayers, layersFrom_eq_nil (nameSites_stop target) hsites]
  rfl

end Refusal

/-- Every query of a corpus has an answer, whatever its files hold, up to the refusals of an
analysis. A file that cannot be read or is binary has no symbols, imports and references; one that
breaks its grammar has no symbols in Go and no imports in Python. Unless some path leads through too
many links, all that is refused are files outside of the corpus. -/
theorem answers_unless_refused (tree : FileTree) (c : Corpus) (hint : Hint)
    (importersOf : Option (String → List String)) :
    (Index.build tree c).value.entries = c.paths.flatMap
    (fun path => (c.outline tree path).map (⟨path, ·⟩)) ∧
    (∀ path, (ImportGraph.build tree c).value.importsOf path =
      if path ∈ c.paths then Ascending.ofList
        ((ImportGraph.importsIn? tree c path).getD []) else []) ∧
    (∀ files path content, (Python.Source.ofBytes? content).bind Python.importsOf? = none →
      ImportGraph.targets files path content .python = []) ∧
    (∀ name limit, name ≠ "" →
      (search tree c name limit hint).value.definition = (definitionOf tree c hint name).map
        (·.toMention true) ∧
      (search tree c name limit hint).value.references =
        ((referencesOf tree c hint name).map (·.toMention false)).take limit.toNat) ∧
    (∀ limit, (search tree c "" limit hint).value = { symbol := "" }) ∧
    ∀ target depth limit,
      (∀ e, (analyze tree c target depth limit hint importersOf).value = .error e ↔
        Refuses tree c target e) ∧
      ((∀ path, tree.locate path ≠ .error .tooManyLinks) → ∀ e, Refuses tree c target e →
        ∃ path, e = .notIndexed path) ∧
      (isFileTarget target = false → (∀ l ∈ corpusLines tree c, ¬ Occurs target.toList l.text) →
        ∃ i, (analyze tree c target depth limit hint importersOf).value = .ok i ∧
          i.layers = []) := by
  refine ⟨Index.entries_build tree c, fun path => ?_, fun _ _ _ => ImportGraph.targets_of_broken,
    fun name limit hname => ?_, search_empty tree c hint, fun target depth limit =>
    ⟨fun e => analyze_eq_error_iff, fun hlinks e h => ?_, layers_of_absent⟩⟩
  · rw [ImportGraph.importsOf_build, ImportGraph.importedBy_value]
  · rw [search_definition_eq limit hname, search_references,
      allReferences_eq tree c hint name hname]
    exact ⟨rfl, rfl⟩
  · cases h with
    | @notIndexed path => exact ⟨path, rfl⟩
    | linkLoop hfile habsolute hnul hresolve =>
      obtain ⟨left, hleft⟩ :=
        hresolve.elim FileTree.exists_locate_of_resolve? FileTree.exists_locate_of_resolve?
      exact absurd hleft (hlinks left)

/-- A broken file of Go, a binary file, and a file of Python that cannot be parsed. -/
def faultyTree : FileTree :=
  ⟨[(["r"], .directory), (["r", "a.go"], .file (Utf8.encode "package p\nfunc (\n".toList)),
    (["r", "b.js"], .file [0]), (["r", "c.py"], .file (Utf8.encode "import d\n)\n".toList)),
    (["r", "d.py"], .file (Utf8.encode "def f():\n    pass\n".toList))]⟩

/-- Files of all kinds of faults beside one without, and a file that is missing. -/
theorem answers_unless_refused_faulty :
    let c := Corpus.ofPaths "/r" ["a.go", "b.js", "c.py", "d.py", "e.py"]
    let hint : Hint := fun _ => some ("b.js", 1)
    (Index.build faultyTree c).value.entries.map (·.path) = ["d.py"] ∧
      (ImportGraph.build faultyTree c).value.importsOf "c.py" = [] ∧
      (search faultyTree c "f" 9 hint).value.definition = some ⟨"d.py", 1, "def f():", true⟩ ∧
      (∀ e, (analyze faultyTree c "f.go" 1 9 hint none).value = .error e ↔ e = .notIndexed "f.go") ∧
      ∃ i, (analyze faultyTree c "g" 1 9 hint none).value = .ok i ∧ i.layers = [] := by
  intro c hint
  obtain ⟨hindex, hgraph, hbroken, hsearch, -, hanalyze⟩ :=
    answers_unless_refused faultyTree c hint none
  have hlinks (path : String) : faultyTree.locate path ≠ .error .tooManyLinks :=
    FileTree.locate_ne_tooManyLinks (by simp [faultyTree]) path
  have hrefuses : Refuses faultyTree c "f.go" (.notIndexed "f.go") :=
    .notIndexed (by decide) (by decide +kernel) (by decide +kernel)
  refine ⟨?_, ?_, ?_, fun e => ⟨fun h => ?_, ?_⟩, ?_⟩
  · rw [hindex]
    decide +kernel
  · have hcontent : c.text? faultyTree "c.py" = some (Utf8.encode "import d\n)\n".toList) := by
      decide +kernel
    have hlanguage : ImportGraph.Language.ofPath? "c.py" = some .python := by decide +kernel
    rw [hgraph, ImportGraph.importsIn?, hlanguage, Option.bind_some, hcontent, Option.map_some,
      hbroken _ _ _ (by decide +kernel)]
    decide +kernel
  · rw [(hsearch "f" 9 (by decide)).1]
    decide +kernel
  · obtain ⟨path, rfl⟩ := (hanalyze "f.go" 1 9).2.1 hlinks e (((hanalyze "f.go" 1 9).1 e).mp h)
    exact Except.error.inj (h.symm.trans (((hanalyze "f.go" 1 9).1 _).mpr hrefuses))
  · rintro rfl
    exact ((hanalyze "f.go" 1 9).1 _).mpr hrefuses
  · exact (hanalyze "g" 1 9).2.2 (by decide) (by decide +kernel)

/-- A directory with a link to itself. -/
def loopTree : FileTree :=
  ⟨[(["r"], .directory), (["r", "a.py"], .file []), (["r", "loop"], .link "loop")]⟩

/-- A link that leads to itself is not told apart as a file outside of the corpus. -/
theorem analyze_link_loop :
    let c := Corpus.ofPaths "/r" ["a.py"]
    isFileTarget "/r/loop" = true ∧ "/r/loop" ∉ c.paths ∧
      (analyze loopTree c "/r/loop" 1 10 (fun _ => none) none).value =
        .error (.path .linkLoop) := by
  decide +kernel

end Impact

end CodeAtlas
