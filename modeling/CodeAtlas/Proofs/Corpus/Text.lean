import CodeAtlas.Index
import CodeAtlas.Proofs.Imports.Graph

/-! # Text files of a corpus

Queries see of each file its content, if it can be read and is not binary. A file that breaks the
grammar of its language has no symbols, and in Python no imports. So a fault costs what its own file
would have told and nothing else.
-/
namespace CodeAtlas

namespace Corpus
variable (tree : FileTree) (c : Corpus) (path : String)

/-- The content of a file, if it can be read and is text. -/
def text? : Option (List UInt8) :=
  (tree.read (c.fullPath path)).toOption.filter fun content => !isBinary content

/-- The symbols of a file, none if it is not text or breaks its grammar. -/
def outline : List Symbol :=
  ((c.text? tree path).bind fun content =>
    (Outline.Registry.builtin.symbols path content).toOption).getD []

variable {tree c path}

theorem text?_eq_some_iff {content : List UInt8} :
    c.text? tree path = some content ↔ tree.read (c.fullPath path) = .ok content ∧
      isBinary content = false := by
  unfold text?
  cases tree.read (c.fullPath path) with
  | error fault => simp [Except.toOption]
  | ok found =>
    simp only [Except.toOption, Option.filter_eq_some_iff, Option.some.injEq, Except.ok.injEq,
      Bool.not_eq_true']

theorem read_value : (c.read tree path).value = c.text? tree path := by
  ext content
  rw [read_eq_some_iff, text?_eq_some_iff]

theorem symbols_value : (c.symbols tree path).value = c.outline tree path := by
  unfold symbols outline
  rw [Logged.value_bind, read_value]
  cases c.text? tree path with
  | none => rfl
  | some content =>
    simp only [Option.bind_some]
    generalize Outline.Registry.builtin.symbols path content = found
    cases found <;> rfl

end Corpus

theorem Index.entriesOf_value (tree : FileTree) (c : Corpus) (paths : List String) :
    (entriesOf tree c paths).value = paths.flatMap fun path =>
      (c.outline tree path).map (⟨path, ·⟩) := by
  induction paths with
  | nil => rfl
  | cons path rest ih =>
    rw [entriesOf, List.flatMap_cons, ← ih, ← Corpus.symbols_value]
    simp only [Logged.value_bind, Logged.value_pure]

theorem Index.entries_build (tree : FileTree) (c : Corpus) :
    (build tree c).value.entries = c.paths.flatMap fun path =>
      (c.outline tree path).map (⟨path, ·⟩) :=
  entriesOf_value tree c c.paths

namespace ImportGraph
variable (tree : FileTree) (c : Corpus) (path : String)

/-- The other files that the text of a file leads to, none if it is not text in a known language. -/
def importsIn? : Option (List String) :=
  (Language.ofPath? path).bind fun language =>
    (c.text? tree path).map fun content =>
      (targets c.paths path content language).filter (· != path)

theorem importedBy_value : (importedBy tree c path).value = importsIn? tree c path := by
  unfold importedBy importsIn?
  cases Language.ofPath? path with
  | none => rfl
  | some language =>
    rw [Option.bind_some, Logged.value_bind, Corpus.read_value, Logged.value_pure]

variable {tree c path}

theorem targets_of_broken {files : List String} {content : List UInt8}
    (h : (Python.Source.ofBytes? content).bind Python.importsOf? = none) :
    targets files path content .python = [] := by
  rw [targets, Python.importsOfBytes, h]
  rfl

end ImportGraph

end CodeAtlas
