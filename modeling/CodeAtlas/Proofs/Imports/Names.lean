import CodeAtlas.Proofs.Corpus.Text
import Mathlib.Data.List.Nodup

/-! # Imports of several names

An import of names leads to the modules of these names inside of the package, and to the package's
own file for a name that is no module of it. But the second is decided once for all the names of a
statement: a single module among them is enough for the file of the package to be left out. This is
the only difference that it makes whether names are imported together or one by one.
-/
namespace CodeAtlas
open Text

theorem Text.Ascending.ofList_congr {xs ys : List String} (h : ∀ s, s ∈ xs ↔ s ∈ ys) :
    Ascending.ofList xs = Ascending.ofList ys := by
  have hxs := Ascending.pairwise_ofList xs
  have hys := Ascending.pairwise_ofList ys
  apply List.Perm.eq_of_pairwise _ hxs hys
  · rw [List.perm_ext_iff_of_nodup hxs.nodup hys.nodup]
    simpa using h
  · intro a b _ _ hab hba
    exact absurd (String.lt_trans hab hba) (String.lt_irrefl a)

namespace Imports.Python
open CodeAtlas.Python

namespace Modules

section Import
variable (m : Modules) (importer : String) (i : Import)

/-- The file of a name, if it is a module inside of the package that an import is about. -/
def submodule? (name : String) : Option String :=
  let base := baseModule importer i
  m.find? (Path.directory importer) (if base.isEmpty then name else base ++ "." ++ name)

/-- The file of the package or module that an import is about. -/
def package? : Option String := m.innermost? (Path.directory importer) (baseModule importer i)

/-- Some of the names of an import are modules of the package and others are not, so that these must
come from the file of the package, and no name leads there by itself. -/
def LosesPackage : Prop :=
  ∃ file ∈ m.package? importer i, (∃ name ∈ i.names, m.submodule? importer i name = none) ∧
    (∃ name ∈ i.names, m.submodule? importer i name ≠ none) ∧
      ∀ name ∈ i.names, m.submodule? importer i name ≠ some file

instance : Decidable (m.LosesPackage importer i) := by
  unfold LosesPackage
  infer_instance

end Import

section Resolve
variable {m : Modules} {importer : String} {i : Import} {q : String}

theorem mem_resolve_iff : q ∈ m.resolve importer i ↔
    (∃ name ∈ i.names, m.submodule? importer i name = some q) ∨
      ((∀ name ∈ i.names, m.submodule? importer i name = none) ∧
        m.package? importer i = some q) := by
  have hresolve :
      m.resolve importer i = if (i.names.filterMap (m.submodule? importer i)).isEmpty then
      (m.package? importer i).toList else i.names.filterMap (m.submodule? importer i) := rfl
  rw [hresolve]
  by_cases hnone : ∀ name ∈ i.names, m.submodule? importer i name = none
  · have hempty := List.filterMap_eq_nil_iff.mpr hnone
    have hno : ¬ ∃ name ∈ i.names, m.submodule? importer i name = some q := by
      rintro ⟨name, hname, hq⟩
      simp [hnone name hname] at hq
    rw [hempty, List.isEmpty_nil, if_pos rfl, Option.mem_toList]
    exact ⟨fun hq => Or.inr ⟨hnone, hq⟩, fun h => (h.resolve_left hno).2⟩
  · have hsome : (i.names.filterMap (m.submodule? importer i)).isEmpty = false := by
      simpa [List.filterMap_eq_nil_iff] using hnone
    simp [hsome, hnone]

/-- One by one, a name that is no module of the package leads to the file of the package, whatever
the others are. -/
theorem exists_mem_resolve_iff :
    (∃ name ∈ i.names, q ∈ m.resolve importer { i with names := [name] }) ↔
    (∃ name ∈ i.names, m.submodule? importer i name = some q) ∨
      ((∃ name ∈ i.names, m.submodule? importer i name = none) ∧
        m.package? importer i = some q) := by
  have halone (name : String) : q ∈ m.resolve importer { i with names := [name] } ↔
      m.submodule? importer i name = some q ∨
        (m.submodule? importer i name = none ∧ m.package? importer i = some q) := by
    rw [mem_resolve_iff]
    simp only [List.mem_singleton, exists_eq_left, forall_eq]
    rfl
  simp only [halone]
  constructor
  · rintro ⟨name, hname, hq | ⟨hnone, hq⟩⟩
    · exact Or.inl ⟨name, hname, hq⟩
    · exact Or.inr ⟨⟨name, hname, hnone⟩, hq⟩
  · rintro (⟨name, hname, hq⟩ | ⟨⟨name, hname, hnone⟩, hq⟩)
    · exact ⟨name, hname, Or.inl hq⟩
    · exact ⟨name, hname, Or.inr ⟨hnone, hq⟩⟩

theorem exists_mem_resolve_iff_or (hne : i.names ≠ []) :
    (∃ name ∈ i.names, q ∈ m.resolve importer { i with names := [name] }) ↔
      q ∈ m.resolve importer i ∨ (m.LosesPackage importer i ∧ m.package? importer i = some q) := by
  rw [exists_mem_resolve_iff, mem_resolve_iff]
  constructor
  · rintro (hq | ⟨hnone, hq⟩)
    · exact Or.inl (Or.inl hq)
    · by_cases hfound : ∃ name ∈ i.names, m.submodule? importer i name = some q
      · exact Or.inl (Or.inl hfound)
      by_cases hall : ∀ name ∈ i.names, m.submodule? importer i name = none
      · exact Or.inl (Or.inr ⟨hall, hq⟩)
      · push Not at hfound hall
        exact Or.inr ⟨⟨q, hq, hnone, hall, hfound⟩, hq⟩
  · rintro ((hq | ⟨hall, hq⟩) | ⟨⟨_, _, hnone, _⟩, hq⟩)
    · exact Or.inl hq
    · obtain ⟨name, hname⟩ := List.exists_mem_of_ne_nil _ hne
      exact Or.inr ⟨⟨name, hname, hall name hname⟩, hq⟩
    · exact Or.inr ⟨hnone, hq⟩

theorem not_mem_resolve_of_losesPackage (hq : m.package? importer i = some q)
    (h : m.LosesPackage importer i) : q ∉ m.resolve importer i := by
  obtain ⟨file, hfile, -, ⟨name, hname, hmodule⟩, hother⟩ := h
  obtain rfl : file = q := Option.some.inj (hfile.symm.trans hq)
  rw [mem_resolve_iff]
  rintro (⟨name, hname, heq⟩ | ⟨hnone, -⟩)
  · exact hother name hname heq
  · exact hmodule (hnone name hname)

end Resolve

/-! ## Statements of the same content -/

/-- What an import asks for, one name at a time. -/
def requests (i : Import) : List Import :=
  if i.names = [] then [{ i with line := 0 }] else i.names.map fun name =>
    { i with line := 0, names := [name] }

/-- Two lists of imports ask for the same, in whatever statements, and none of these leaves the file
of a package out. -/
structure SameRequests (m : Modules) (importer : String) (imports imports' : List Import) :
    Prop where
  subset : ∀ r ∈ imports.flatMap requests, r ∈ imports'.flatMap requests
  superset : ∀ r ∈ imports'.flatMap requests, r ∈ imports.flatMap requests
  keeps : ∀ i ∈ imports ++ imports', ¬ m.LosesPackage importer i

instance (m : Modules) (importer : String) (imports imports' : List Import) :
    Decidable (SameRequests m importer imports imports') :=
  decidable_of_iff ((∀ r ∈ imports.flatMap requests, r ∈ imports'.flatMap requests) ∧
      (∀ r ∈ imports'.flatMap requests, r ∈ imports.flatMap requests) ∧ ∀ i ∈ imports ++ imports',
        ¬ m.LosesPackage importer i)
    ⟨fun h => ⟨h.1, h.2.1, h.2.2⟩, fun h => ⟨h.subset, h.superset, h.keeps⟩⟩

theorem mem_resolve_iff_requests {m : Modules} {importer : String} {i : Import}
    (h : ¬ m.LosesPackage importer i) (q : String) :
    q ∈ m.resolve importer i ↔ ∃ r ∈ requests i, q ∈ m.resolve importer r := by
  unfold requests
  by_cases hnames : i.names = []
  · rw [if_pos hnames]
    simp only [List.mem_singleton, exists_eq_left]
    rfl
  · have halone : (∃ name ∈ i.names, q ∈ m.resolve importer { i with names := [name] }) ↔
        q ∈ m.resolve importer i := by
      rw [exists_mem_resolve_iff_or hnames]
      simp [h]
    rw [if_neg hnames, ← halone]
    simp only [List.mem_map, exists_exists_and_eq_and]
    rfl

theorem SameRequests.mem_flatMap_resolve_iff {m : Modules} {importer : String}
    {imports imports' : List Import} (h : SameRequests m importer imports imports') (q : String) :
    q ∈ imports.flatMap (m.resolve importer) ↔ q ∈ imports'.flatMap (m.resolve importer) := by
  have hrequests {is : List Import} (hkeeps : ∀ i ∈ is, ¬ m.LosesPackage importer i) :
      q ∈ is.flatMap (m.resolve importer) ↔ ∃ r ∈ is.flatMap requests,
        q ∈ m.resolve importer r := by
    simp only [List.mem_flatMap]
    constructor
    · rintro ⟨i, hi, hq⟩
      obtain ⟨r, hr, hq⟩ := (mem_resolve_iff_requests (hkeeps i hi) q).mp hq
      exact ⟨r, ⟨i, hi, hr⟩, hq⟩
    · rintro ⟨r, ⟨i, hi, hr⟩, hq⟩
      exact ⟨i, hi, (mem_resolve_iff_requests (hkeeps i hi) q).mpr ⟨r, hr, hq⟩⟩
  rw [hrequests fun i hi => h.keeps i (List.mem_append_left _ hi),
    hrequests fun i hi => h.keeps i (List.mem_append_right _ hi)]
  constructor
  · rintro ⟨r, hr, hq⟩
    exact ⟨r, h.subset r hr, hq⟩
  · rintro ⟨r, hr, hq⟩
    exact ⟨r, h.superset r hr, hq⟩

end Modules

end Imports.Python

namespace ImportGraph
open CodeAtlas.Python Imports.Python Modules

/-- A file of a corpus leads to the same files in two trees: it has the same text, or two texts in
Python that ask for the same modules and names. -/
def SameImports (tree tree' : FileTree) (c : Corpus) (path : String) : Prop :=
  c.text? tree path = c.text? tree' path ∨
    Language.ofPath? path = some .python ∧ ∃ content ∈ c.text? tree path,
      ∃ content' ∈ c.text? tree' path, SameRequests (ofFiles c.paths) path (importsOfBytes content)
      (importsOfBytes content')

instance (tree tree' : FileTree) (c : Corpus) (path : String) :
    Decidable (SameImports tree tree' c path) := by
  unfold SameImports
  infer_instance

theorem SameImports.edge_eq {tree tree' : FileTree} {c : Corpus} {path : String}
    (h : SameImports tree tree' c path) :
    (importedBy tree c path).value.map Ascending.ofList = (importedBy tree' c path).value.map
    Ascending.ofList := by
  rw [importedBy_value, importedBy_value, importsIn?, importsIn?]
  rcases h with htext | ⟨hlanguage, content, hcontent, content', hcontent', hsame⟩
  · rw [htext]
  · rw [hlanguage, Option.mem_def.mp hcontent, Option.mem_def.mp hcontent']
    simp only [Option.bind_some, Option.map_some, Option.some.injEq]
    apply Ascending.ofList_congr
    intro q
    rw [List.mem_filter, List.mem_filter, targets, targets, hsame.mem_flatMap_resolve_iff]

theorem build_eq_of_sameImports {tree tree' : FileTree} {c : Corpus}
    (h : ∀ path ∈ c.paths, SameImports tree tree' c path) :
    (build tree c).value = (build tree' c).value := by
  have hedges : (build tree c).value.edges = (build tree' c).value.edges := by
    rw [edges_build, edges_build]
    apply List.filterMap_congr
    intro path hpath
    rw [map_importedBy, map_importedBy, (h path hpath).edge_eq]
  rw [build_value tree c, hedges, ← build_value]

/-- The imports of single names lead where the import of all of them leads, and to the file of the
package if that is left out there. So names may be imported together or one by one, without any
effect on the graph, unless an import of several names leaves the file of its package out. -/
theorem resolve_names (m : Modules) (importer : String) (i : Import) (hne : i.names ≠ [])
    (c : Corpus) : (∀ q, (∃ name ∈ i.names, q ∈ m.resolve importer { i with names := [name] }) ↔
      q ∈ m.resolve importer i ∨ (m.LosesPackage importer i ∧ m.package? importer i = some q)) ∧
    ((∀ q, q ∈ m.resolve importer i ↔ ∃ name ∈ i.names,
      q ∈ m.resolve importer { i with names := [name] }) ↔ ¬ m.LosesPackage importer i) ∧
    ∀ tree tree' : FileTree, (∀ path ∈ c.paths, SameImports tree tree' c path) →
      (build tree c).value = (build tree' c).value := by
  refine ⟨fun q => exists_mem_resolve_iff_or hne, ?_, fun tree tree' => build_eq_of_sameImports⟩
  simp only [exists_mem_resolve_iff_or hne]
  constructor
  · intro hsame hloses
    obtain ⟨file, hfile, -⟩ := id hloses
    exact not_mem_resolve_of_losesPackage hfile hloses ((hsame file).mpr (Or.inr ⟨hloses, hfile⟩))
  · intro hkeeps q
    simp [hkeeps]

/-- A file with the given text beside a package of two modules. -/
def packageTree (text : String) : FileTree :=
  ⟨[(["r"], .directory), (["r", "a.py"], .file (Utf8.encode text.toList)), (["r", "p"], .directory),
    (["r", "p", "__init__.py"], .file []), (["r", "p", "s.py"], .file []),
      (["r", "p", "t.py"], .file [])]⟩

/-- The files of the tree. -/
def packageCorpus : Corpus := Corpus.ofPaths "/r" ["a.py", "p/__init__.py", "p/s.py", "p/t.py"]

/-- Two modules in one statement and two other names in another one, against one name in each
statement. -/
theorem resolve_names_apart :
    let tree := packageTree "from p import s, t\nfrom p import x, y\n"
    let tree' := packageTree "from p import y\nfrom p import s\nfrom p import t\nfrom p import x\n"
    let m := ofFiles packageCorpus.paths
    let i : Import := ⟨1, "p", ["s", "t"], 0⟩
    i.names ≠ [] ∧ ¬ m.LosesPackage "a.py" i ∧
      (∀ q, q ∈ m.resolve "a.py" i ↔ ∃ name ∈ i.names,
        q ∈ m.resolve "a.py" { i with names := [name] }) ∧
      (∀ path ∈ packageCorpus.paths, SameImports tree tree' packageCorpus path) ∧
      (build tree packageCorpus).value = (build tree' packageCorpus).value ∧
      (build tree packageCorpus).value.importsOf "a.py" = ["p/__init__.py",
        "p/s.py", "p/t.py"] := by
  intro tree tree' m i
  have hne : i.names ≠ [] := by decide
  have hkeeps : ¬ m.LosesPackage "a.py" i := by decide +kernel
  have hsame : ∀ path ∈ packageCorpus.paths, SameImports tree tree' packageCorpus path := by
    decide +kernel
  obtain ⟨-, hresolve, hgraph⟩ := resolve_names m "a.py" i hne packageCorpus
  exact ⟨hne, hkeeps, hresolve.mpr hkeeps, hsame, hgraph tree tree' hsame, by decide +kernel⟩

/-- A module of the package and another name in one statement: the edge to the package is lost. -/
theorem resolve_names_mixed :
    let m := ofFiles packageCorpus.paths
    let i : Import := ⟨1, "p", ["s", "x"], 0⟩
    (¬ ∀ q, q ∈ m.resolve "a.py" i ↔ ∃ name ∈ i.names,
      q ∈ m.resolve "a.py" { i with names := [name] }) ∧
      (build (packageTree "from p import s, x\n") packageCorpus).value.importsOf "a.py" =
        ["p/s.py"] ∧
      (build (packageTree "from p import s\nfrom p import x\n")
        packageCorpus).value.importsOf "a.py" = ["p/__init__.py", "p/s.py"] := by
  intro m i
  have htogether : "p/__init__.py" ∉ m.resolve "a.py" i := by decide +kernel
  have halone :
      ∃ name ∈ i.names, "p/__init__.py" ∈ m.resolve "a.py" { i with names := [name] } := by
    decide +kernel
  exact ⟨fun h => htogether ((h _).mpr halone), by decide +kernel⟩

end ImportGraph

end CodeAtlas
