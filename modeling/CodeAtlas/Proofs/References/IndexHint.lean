import CodeAtlas.Index
import CodeAtlas.Proofs.Go.Declaration
import CodeAtlas.Proofs.Outline.Braced.Declaration
import CodeAtlas.Proofs.Outline.Indented.Declaration
import CodeAtlas.Proofs.References.TwoPass

/-! # Hints of the index

The index knows the line on which a name is declared, and a search takes that line for the
definition if the name stands there as a whole word. It does so in every Python file. In other
languages there are names that are no words, and declarations whose line is not the line of the
name; nothing else can make a search disagree with the index.
-/
namespace CodeAtlas

/-! ## Declarations -/

namespace Outline
open Text

/-- Why the line of a declaration may not have the name on it as a whole word. -/
inductive Hidden (path : String) (text : List Char) (s : Symbol) : Prop
  /-- The hash sign of a private member is no part of a word. -/
  | hash (hfile : Registry.builtin.find? (Path.suffix path) = some .braced) (h : Braced.IsPrivate s)
  /-- The name is the end of a longer word. -/
  | glued (hfile : Registry.builtin.find? (Path.suffix path) = some .braced)
      (h : Braced.IsGluedFunction s)
  /-- The name does not begin and end with word characters, as a comma does not. -/
  | edge (hfile : Registry.builtin.find? (Path.suffix path) = some .go)
      (h : ¬ HasWordEnds s.name.toList)
  /-- The name stands on a later line than the keyword. -/
  | broken (hfile : Registry.builtin.find? (Path.suffix path) = some .go)
    (h : Go.BreaksBeforeName text s.name s.line.toNat)

/-- The symbol has a name and the number of a line. -/
structure IsDeclaredOn (path : String) (text : List Char) (s : Symbol) (raw : List Char) :
    Prop where
  name_ne : s.name.toList ≠ []
  line_pos : 1 ≤ s.line
  raw_eq : (lines text)[s.line.toNat - 1]? = some raw
  occurs : ¬ Hidden path text s → Occurs s.name.toList raw

variable {path : String} {text : List Char} {s : Symbol}

theorem isDeclaredOn_of_indented (h : s ∈ Indented.symbolsOfLines (lines text)) :
    ∃ raw, IsDeclaredOn path text s raw := by
  obtain ⟨n, raw, hraw, hdeclared⟩ := Indented.exists_isDeclaredBy h
  have hline := hdeclared.line_eq
  have hindex : s.line.toNat - 1 = n := by omega
  exact ⟨raw, hdeclared.name_ne, by omega, hindex ▸ hraw, fun _ => hdeclared.occurs⟩

theorem isDeclaredOn_of_braced (hfile : Registry.builtin.find? (Path.suffix path) = some .braced)
    (h : s ∈ Braced.symbolsOfLines (lines text)) : ∃ raw, IsDeclaredOn path text s raw := by
  obtain ⟨n, raw, hraw, hdeclared⟩ := Braced.exists_isDeclaredBy h
  have hline := hdeclared.line_eq
  have hindex : s.line.toNat - 1 = n := by omega
  refine ⟨raw, hdeclared.name_ne, by omega, hindex ▸ hraw, fun hidden => ?_⟩
  exact hdeclared.occurs (fun h => hidden (.hash hfile h)) fun h => hidden (.glued hfile h)

theorem exists_line_of_within {c : Go.Cursor} (h : Go.Within text c) :
    1 ≤ c.line ∧ ∃ raw, (lines text)[c.line - 1]? = some raw := by
  obtain ⟨before, htext, hline⟩ := h
  have hbound : c.line - 1 < (lines text).length := by
    rw [length_lines, htext, List.count_append]
    omega
  exact ⟨by omega, _, List.getElem?_eq_getElem hbound⟩

theorem isDeclaredOn_of_go (hfile : Registry.builtin.find? (Path.suffix path) = some .go)
    (h : Go.Grammar.SymbolRecorded text s) : ∃ raw, IsDeclaredOn path text s raw := by
  obtain ⟨line, hline, hname, ⟨c, hc, rfl⟩, hstands⟩ := h
  obtain ⟨hpos, raw, hraw⟩ := exists_line_of_within hc
  refine ⟨raw, hname, by omega, by rwa [hline], fun hidden => ?_⟩
  have hends : HasWordEnds s.name.toList := Decidable.byContradiction fun h =>
      hidden (.edge hfile h)
  rcases hstands hends with hstands | hbroken
  · obtain ⟨raw', hraw', hoccurs⟩ := hstands.exists_line hends
    rw [hraw, Option.some.injEq] at hraw'
    exact hraw' ▸ hoccurs
  · exact absurd (.broken hfile (by rwa [hline])) hidden

theorem builtin_find?_cases {suffix : String} {e : Extractor}
    (h : Registry.builtin.find? suffix = some e) : e = .go ∨ e = .braced ∨ e = .indented := by
  obtain ⟨front, back, hentries, -⟩ := List.lookup_eq_some_iff.mp h
  have hmem : (suffix, e) ∈ Registry.builtin.entries := by simp [hentries]
  simp only [Registry.builtin, Registry.register, List.map_cons, List.map_nil, List.cons_append,
    List.nil_append, List.mem_cons, Prod.mk.injEq, List.not_mem_nil, or_false] at hmem
  tauto

/-- Every symbol of a file is declared on one of its lines. -/
theorem exists_isDeclaredOn {content : List UInt8} {found : List Symbol}
    (h : Registry.builtin.symbols path content = .ok found) (hs : s ∈ found) :
    ∃ raw, IsDeclaredOn path (Utf8.decode content) s raw := by
  unfold Registry.symbols at h
  split at h
  next e hfile =>
    rcases builtin_find?_cases hfile with rfl | rfl | rfl
    · simp only [Extractor.symbols] at h
      split at h
      next symbols hsymbols =>
        obtain rfl := Except.ok.inj h
        exact isDeclaredOn_of_go hfile (Go.recorded_of_mem_symbols? hsymbols hs)
      · cases h
    · obtain rfl := Except.ok.inj h
      exact isDeclaredOn_of_braced hfile hs
    · obtain rfl := Except.ok.inj h
      exact isDeclaredOn_of_indented hs
  next =>
    obtain rfl := Except.ok.inj h
    cases hs

end Outline

/-! ## The index -/

section Index
variable {tree : FileTree} {c : Corpus} {path : String} {s : Symbol}

theorem Corpus.exists_isDeclaredOn (h : s ∈ (c.symbols tree path).value) :
    ∃ text raw, (c.readText tree path).value = some text ∧
      Outline.IsDeclaredOn path text s raw := by
  rw [Corpus.symbols, Logged.value_bind] at h
  cases hread : (c.read tree path).value with
  | none =>
    rw [hread] at h
    cases h
  | some content =>
    rw [hread] at h
    simp only at h
    split at h
    next found hfound =>
      obtain ⟨raw, hraw⟩ := Outline.exists_isDeclaredOn hfound h
      refine ⟨_, raw, ?_, hraw⟩
      rw [Corpus.readText, Logged.value_bind, hread]
      rfl
    · cases h

theorem Index.mem_entriesOf {e : IndexEntry} {paths : List String}
    (h : e ∈ (Index.entriesOf tree c paths).value) :
    e.path ∈ paths ∧ e.symbol ∈ (c.symbols tree e.path).value := by
  induction paths with
  | nil => cases h
  | cons first rest ih =>
    simp only [Index.entriesOf, Logged.value_bind, Logged.value_pure, List.mem_append,
      List.mem_map] at h
    rcases h with ⟨s, hs, rfl⟩ | h
    · exact ⟨List.mem_cons_self, hs⟩
    · obtain ⟨hpath, hsymbol⟩ := ih h
      exact ⟨List.mem_cons_of_mem first hpath, hsymbol⟩

theorem Index.exists_of_definition? {name : String} {line : Int}
    (h : (Index.build tree c).value.definition? name = some (path, line)) :
    path ∈ c.paths ∧ ∃ s ∈ (c.symbols tree path).value, s.name = name ∧ s.line = line := by
  obtain ⟨e, hfind, hplace⟩ := Option.map_eq_some_iff.mp h
  obtain ⟨rfl, rfl⟩ := Prod.mk.inj hplace
  have hname := List.find?_some hfind
  obtain ⟨hpath, hsymbol⟩ := Index.mem_entriesOf (List.mem_of_find?_eq_some hfind)
  simp only [Bool.and_eq_true, beq_iff_eq] at hname
  exact ⟨hpath, e.symbol, hsymbol, hname.1, rfl⟩

end Index

/-! ## The search -/

namespace References
open Text

section Search
variable {tree : FileTree} {c : Corpus} {name : String} {hint : Hint}

theorem search_definition_eq (limit : Int) (hname : name ≠ "") :
    (search tree c name limit hint).value.definition =
      (definitionOf tree c hint name).map (·.toMention true) := by
  rw [search_value tree c hint name hname]
  simp only [files_request]

theorem mem_occurrences_of_definitionOf {l : SourceLine}
    (h : definitionOf tree c hint name = some l) : l ∈ occurrences tree c name := by
  rcases Option.or_eq_some_iff.mp h with h | ⟨-, h⟩
  · exact List.mem_of_find?_eq_some h
  · exact List.mem_of_find?_eq_some h

/-- A hint at a line of the corpus is taken exactly if the name stands there as a whole word. -/
theorem search_definition_iff {path : String} {line : Int} {text raw : List Char} (limit : Int)
    (hname : name ≠ "") (hhint : hint name = some (path, line)) (hpath : path ∈ c.paths)
    (htext : (c.readText tree path).value = some text) (hpos : 1 ≤ line)
    (hraw : (lines text)[line.toNat - 1]? = some raw) :
    (search tree c name limit hint).value.definition.map (fun m => (m.path, m.line)) = some (path,
      line) ↔ Occurs name.toList raw := by
  rw [search_definition_eq limit hname, Option.map_map]
  constructor
  · intro h
    obtain ⟨l, hl, hplace⟩ := Option.map_eq_some_iff.mp h
    obtain ⟨hmem, hoccurs⟩ := (mem_occurrences tree c name).mp (mem_occurrences_of_definitionOf hl)
    obtain ⟨-, text', htext', -, hget⟩ := mem_corpusLines.mp hmem
    obtain ⟨rfl, rfl⟩ : l.path = path ∧ (l.number : Int) = line := Prod.mk.inj hplace
    obtain rfl : text = text' := Option.some.inj (htext.symm.trans htext')
    rw [Int.toNat_natCast] at hraw
    exact Option.some.inj (hget.symm.trans hraw) ▸ hoccurs
  · intro hoccurs
    let l : SourceLine := ⟨path, line.toNat, raw⟩
    have hplace : l.place = (path, line) := by
      rw [SourceLine.place, Int.toNat_of_nonneg (by omega)]
    have hnumber : 1 ≤ line.toNat := by omega
    have hmem : l ∈ occurrences tree c name :=
      (mem_occurrences tree c name).mpr ⟨mem_corpusLines.mpr ⟨hpath, text, htext,
        hnumber, hraw⟩, hoccurs⟩
    have hline := hintedLine_of_mem tree c name hmem
    rw [hplace, ← hhint] at hline
    rw [definitionOf, hline, Option.some_or, Option.map_some]
    exact congrArg some hplace

end Search

/-- A search with the index for a hint: the line that the index knows is there, it becomes the
definition exactly if the name stands on it as a whole word, and it does unless the declaration
hides the name. -/
theorem search_definition_of_index (tree : FileTree) (c : Corpus) (name path : String)
    (line limit : Int) (h : (Index.build tree c).value.definition? name = some (path, line)) :
    ∃ text s raw, (c.readText tree path).value = some text ∧ s ∈ (c.symbols tree path).value ∧
      s.name = name ∧ s.line = line ∧ (lines text)[line.toNat - 1]? = some raw ∧
      ((search tree c name limit (Index.build tree c).value.definition?).value.definition.map
          (fun m => (m.path, m.line)) = some (path, line) ↔ Occurs name.toList raw) ∧
      (¬ Outline.Hidden path text s → Occurs name.toList raw) := by
  obtain ⟨hpath, s, hs, rfl, rfl⟩ := Index.exists_of_definition? h
  obtain ⟨text, raw, htext, hdeclared⟩ := Corpus.exists_isDeclaredOn hs
  have hname : s.name ≠ "" := fun hempty => hdeclared.name_ne (by rw [hempty]; rfl)
  refine ⟨text, s, raw, htext, hs, rfl, rfl, hdeclared.raw_eq, ?_, hdeclared.occurs⟩
  exact search_definition_iff limit hname h hpath htext hdeclared.line_pos hdeclared.raw_eq

/-- Declarations that hide a name, and others next to them. -/
def hiddenTree : FileTree :=
  ⟨[(["r"], .directory),
    (["r", "a.js"], .file (Utf8.encode
      "class A \x7b\n  #secret() \x7b\n  \x7d\n\x7d\nfunctions.push(x)\n".toList)),
    (["r", "b.go"], .file (Utf8.encode
      "package p\nfunc\nRun() \x7b\x7d\nconst a, b = 1, 2\n".toList))]⟩

def hiddenCorpus : Corpus := Corpus.ofPaths "/r" ["a.js", "b.go"]

/-- The class that stands above a private member is found where the index knows it. -/
theorem search_definition_of_index_class :
    (Index.build hiddenTree hiddenCorpus).value.definition? "A" = some ("a.js", 1) ∧
      (search hiddenTree hiddenCorpus "A" 0
          (Index.build hiddenTree hiddenCorpus).value.definition?).value.definition.map
        (fun m => (m.path, m.line)) = some ("a.js", 1) := by
  have hhint : (Index.build hiddenTree hiddenCorpus).value.definition? "A" = some ("a.js", 1) := by
    decide +kernel
  have hkinds : ∀ s ∈ (hiddenCorpus.symbols hiddenTree "a.js").value, s.name = "A" →
      s.kind = .classType := by
    decide +kernel
  have hfile : Outline.Registry.builtin.find? (Path.suffix "a.js") = some .braced := rfl
  obtain ⟨text, s, raw, -, hs, hname, -, -, htaken, hoccurs⟩ :=
    search_definition_of_index hiddenTree hiddenCorpus "A" "a.js" 1 0 hhint
  refine ⟨hhint, htaken.mpr (hoccurs ?_)⟩
  rintro (⟨-, h⟩ | ⟨-, h⟩ | ⟨hgo, -⟩ | ⟨hgo, -⟩)
  · rw [Outline.Braced.IsPrivate, hname] at h
    exact absurd h (by decide)
  · rw [Outline.Braced.IsGluedFunction, hkinds s hs hname] at h
    cases h.1
  · cases hfile.symm.trans hgo
  · cases hfile.symm.trans hgo

/-- A private member, the end of a longer word, a function whose name stands on the next line, and
the comma between two constants: the index knows all of them, and a search with its hints finds no
definition. -/
theorem search_definition_of_index_hidden :
    let hint := (Index.build hiddenTree hiddenCorpus).value.definition?
    ["#secret", "s", "Run", ","].map hint =
        [some ("a.js", 2), some ("a.js", 5), some ("b.go", 2), some ("b.go", 4)] ∧
      ∀ name ∈ ["#secret", "s", "Run", ","],
        (search hiddenTree hiddenCorpus name 10 hint).value.definition = none := by
  decide +kernel

end References

end CodeAtlas
