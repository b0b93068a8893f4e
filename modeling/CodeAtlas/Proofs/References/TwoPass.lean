import CodeAtlas.Proofs.References.Declaration
import Mathlib.Data.List.Basic

/-! # References in two passes

The search for references is one loop with early exits: it collects references and looks out for the
definition at the same time. Here it is compared with two plain passes over the lines that mention
the name. The first pass takes the definition, from the hint or by the shape of a line; the second
one takes the other lines, up to the limit.
-/
namespace CodeAtlas.References
open Text

/-- A line of a file of the corpus; lines count from one. -/
structure SourceLine where
  path : String
  number : Nat
  text : List Char
  deriving DecidableEq

namespace SourceLine

def place (l : SourceLine) : String × Int := (l.path, l.number)

def toMention (isDefinition : Bool) (l : SourceLine) : Mention :=
  mention l.path l.number l.text isDefinition

end SourceLine

/-! ## The two passes -/

/-- The lines of a file that begin with the given number. -/
def numberedFrom (path : String) (number : Nat) (lines : List (List Char)) : List SourceLine :=
  (lines.zipIdx number).map fun (line, number) => ⟨path, number, line⟩

/-- The lines of a file, none if it is not text. -/
def fileLines (tree : FileTree) (c : Corpus) (path : String) : List SourceLine :=
  (c.readText tree path).value.elim [] fun text => numberedFrom path 1 (lines text)

def corpusLines (tree : FileTree) (c : Corpus) : List SourceLine :=
  c.paths.flatMap (fileLines tree c)

/-- The lines in which the name occurs as a whole word. -/
def occurrences (tree : FileTree) (c : Corpus) (name : String) : List SourceLine :=
  (corpusLines tree c).filter fun l => Occurs name.toList l.text

/-- The line at the place of a hint, if there is a hint and the name occurs there. -/
def hintedLine (tree : FileTree) (c : Corpus) (name : String) (place : Option (String × Int)) :
    Option SourceLine :=
  (occurrences tree c name).find? fun l => place = some l.place

/-- The first pass: the line at the place of the hint, else the first line that declares
the name. -/
def definitionOf (tree : FileTree) (c : Corpus) (hint : Hint) (name : String) : Option SourceLine :=
  (hintedLine tree c name (hint name)).or
    ((occurrences tree c name).find? fun l => Declared name.toList l.text)

/-- The second pass: the lines at other places than the definition. -/
def referencesOf (tree : FileTree) (c : Corpus) (hint : Hint) (name : String) : List SourceLine :=
  (occurrences tree c name).filter fun l =>
    (definitionOf tree c hint name).map (·.place) ≠ some l.place

def twoPass (tree : FileTree) (c : Corpus) (name : String) (limit : Int) (hint : Hint) :
    References :=
  let references := (referencesOf tree c hint name).take (max limit 0).toNat
  { symbol := name
    definition := (definitionOf tree c hint name).map (·.toMention true)
    references := references.map (·.toMention false)
    total := references.length }

/-! ## Places -/

section Places
variable {tree : FileTree} {c : Corpus}

theorem mem_fileLines {path : String} {l : SourceLine} :
    l ∈ fileLines tree c path ↔ l.path = path ∧ ∃ text, (c.readText tree path).value = some text ∧
      1 ≤ l.number ∧ (lines text)[l.number - 1]? = some l.text := by
  rw [fileLines]
  cases (c.readText tree path).value with
  | none => simp
  | some text =>
    simp only [Option.elim_some, numberedFrom, List.mem_map, Prod.exists,
      List.mk_mem_zipIdx_iff_le_and_getElem?_sub]
    constructor
    · rintro ⟨line, number, ⟨hle, hget⟩, rfl⟩
      exact ⟨rfl, text, rfl, hle, hget⟩
    · rintro ⟨rfl, _, ⟨rfl⟩, hle, hget⟩
      exact ⟨l.text, l.number, ⟨hle, hget⟩, rfl⟩

theorem mem_corpusLines {l : SourceLine} :
    l ∈ corpusLines tree c ↔ l.path ∈ c.paths ∧ ∃ text, (c.readText tree l.path).value = some text ∧
      1 ≤ l.number ∧ (lines text)[l.number - 1]? = some l.text := by
  simp only [corpusLines, List.mem_flatMap, mem_fileLines]
  constructor
  · rintro ⟨path, hpath, rfl, h⟩
    exact ⟨hpath, h⟩
  · rintro ⟨hpath, h⟩
    exact ⟨l.path, hpath, rfl, h⟩

/-- No two lines of a corpus stand at the same place. -/
theorem pairwise_place (tree : FileTree) (c : Corpus) :
    (corpusLines tree c).Pairwise fun l m => l.place ≠ m.place := by
  unfold corpusLines
  refine List.pairwise_flatMap.mpr ⟨fun path _ => ?_, ?_⟩
  · rw [fileLines]
    cases (c.readText tree path).value with
    | none => exact List.Pairwise.nil
    | some text =>
      have hnumbers : ((lines text).zipIdx 1).Pairwise fun a b => a.2 < b.2 := by
        rw [← List.pairwise_map (f := Prod.snd), List.zipIdx_map_snd]
        exact List.pairwise_lt_range'
      refine List.pairwise_map.mpr (hnumbers.imp ?_)
      rintro ⟨line, m⟩ ⟨line', n⟩ hlt h
      simp only [SourceLine.place, Prod.mk.injEq] at h
      omega
  · refine c.ascending.imp ?_
    intro p q hlt l hl m hm h
    obtain rfl := (mem_fileLines.mp hl).1
    obtain rfl := (mem_fileLines.mp hm).1
    simp only [SourceLine.place, Prod.mk.injEq] at h
    exact String.ne_of_lt hlt h.1

theorem pairwise_place_occurrences (tree : FileTree) (c : Corpus) (name : String) :
    (occurrences tree c name).Pairwise fun l m => l.place ≠ m.place :=
  (pairwise_place tree c).filter _

theorem find?_place {found : List SourceLine}
    (hplaces : found.Pairwise fun l m => l.place ≠ m.place) {l : SourceLine} (hl : l ∈ found) :
    found.find? (fun m => m.place = l.place) = some l := by
  induction found with
  | nil => cases hl
  | cons m rest ih =>
    obtain ⟨hfirst, hrest⟩ := List.pairwise_cons.mp hplaces
    rcases List.mem_cons.mp hl with rfl | hl
    · simp
    · have hne : m.place ≠ l.place := hfirst l hl
      simp [hne, ih hrest hl]

/-- Taking away the first line of a kind is taking away what stands at its place. -/
theorem eraseP_eq_filter_place {found : List SourceLine} {kind : SourceLine → Bool}
    (hplaces : found.Pairwise fun l m => l.place ≠ m.place) :
    found.eraseP kind =
      found.filter fun l => (found.find? kind).map (·.place) ≠ some l.place := by
  induction found with
  | nil => rfl
  | cons m rest ih =>
    obtain ⟨hfirst, hrest⟩ := List.pairwise_cons.mp hplaces
    by_cases hm : kind m = true
    · rw [List.eraseP_cons_of_pos hm, List.find?_cons_of_pos hm]
      refine (List.filter_eq_self.mpr fun l hl => ?_).symm.trans (List.filter_cons_of_neg ?_).symm
      · simpa using hfirst l hl
      · simp
    · rw [List.eraseP_cons_of_neg hm, List.find?_cons_of_neg hm, ih hrest, List.filter_cons_of_pos]
      -- the line that is found stands further on, so not at the place of `m`
      simp only [ne_eq, Option.map_eq_some_iff, not_exists, not_and, decide_eq_true_eq]
      intro l hl h
      exact hfirst l (List.mem_of_find?_eq_some hl) h.symm

end Places

/-! ## The loop -/

namespace Request
variable (q : Request)

def see (found : Found) (l : SourceLine) : Found := q.line l.path found l.number l.text

theorem linesFrom_eq_foldl (path : String) (number : Nat) (rest : List (List Char))
    (found : Found) :
    q.linesFrom path number rest found = (numberedFrom path number rest).foldl q.see found := by
  induction rest generalizing number found with
  | nil => rfl
  | cons line rest ih =>
    rw [linesFrom, ih]
    rfl

theorem addReference_of_full {found : Found} (h : q.limit ≤ found.references.length) (m : Mention) :
    q.addReference found m = found :=
  if_neg (Nat.not_lt.mpr h)

/-- Once nothing more can be found, no line changes what is found. -/
theorem see_of_isDone {found : Found} (h : q.isDone found = true) (l : SourceLine) :
    q.see found l = found := by
  obtain ⟨hfull, hdefinition⟩ :
      q.limit ≤ found.references.length ∧ found.definition.isSome = true := by
    simpa [isDone] using h
  have hkeep := q.addReference_of_full hfull
  unfold see line
  split
  · rfl
  · cases q.known with
    | none => simp [Option.isNone_eq_false_iff.mpr hdefinition, hkeep]
    | some d => simp [hkeep]

theorem foldl_see_of_isDone {found : Found} (h : q.isDone found = true) (rest : List SourceLine) :
    rest.foldl q.see found = found := by
  induction rest with
  | nil => rfl
  | cons l rest ih => rw [List.foldl_cons, see_of_isDone q h, ih]

/-- Leaving out the files behind the last change makes no difference. -/
theorem files_value (tree : FileTree) (c : Corpus) (paths : List String) (found : Found) :
    (q.files tree c paths found).value = (paths.flatMap (fileLines tree c)).foldl q.see found := by
  induction paths generalizing found with
  | nil => rfl
  | cons path paths ih =>
    rw [files, List.flatMap_cons, List.foldl_append]
    by_cases hdone : q.isDone found = true
    · rw [if_pos hdone, foldl_see_of_isDone q hdone, foldl_see_of_isDone q hdone]
      rfl
    · rw [if_neg hdone]
      rw [Logged.value_bind, fileLines]
      cases (c.readText tree path).value with
      | none => exact ih found
      | some text => exact (ih _).trans (by rw [linesFrom_eq_foldl, Option.elim_some])

/-- Only lines with the name in them count. -/
theorem foldl_see_filter (rest : List SourceLine) (found : Found) :
    rest.foldl q.see found = (rest.filter fun l => Occurs q.name l.text).foldl q.see found := by
  induction rest generalizing found with
  | nil => rfl
  | cons l rest ih =>
    rw [List.foldl_cons, ih]
    by_cases hl : Occurs q.name l.text
    · rw [List.filter_cons_of_pos (by simpa using hl), List.foldl_cons]
    · rw [List.filter_cons_of_neg (by simpa using hl)]
      have hno : mentions q.name l.text = false := by simpa [← mentions_iff] using hl
      simp [see, line, hno]

theorem take_take_append {α : Type} (n : Nat) (xs ys : List α) :
    (xs.take n ++ ys).take n = (xs ++ ys).take n := by
  have hlength : n - (xs.take n).length = n - xs.length := by
    rw [List.length_take]
    omega
  rw [List.take_append, List.take_append, List.take_take, Nat.min_self, hlength]

section Run
variable {q} {definition : Option Mention} {references : List Mention}

/-- As long as there are not too many references, one more is put behind them and the
list is cut. -/
theorem addReference_eq_take (h : references.length ≤ q.limit) (m : Mention) :
    q.addReference ⟨definition, references⟩ m = ⟨definition, (references ++ [m]).take q.limit⟩ := by
  unfold addReference
  split
  next hlt => rw [List.take_of_length_le (by rw [List.length_append]; exact hlt)]
  next hnot =>
    have hfull : references.length = q.limit := Nat.le_antisymm h (Nat.not_lt.mp hnot)
    rw [← hfull, List.take_left]

/-- A run with a definition that is known from the start. -/
theorem foldl_see_known {d : SourceLine} (hq : q.known = some (d.toMention true))
    {rest : List SourceLine} (hrest : ∀ l ∈ rest, Occurs q.name l.text)
    (hlimit : references.length ≤ q.limit) :
    rest.foldl q.see ⟨definition, references⟩ = ⟨definition, (references ++ (rest.filter
      fun l => some d.place ≠ some l.place).map (·.toMention false)).take q.limit⟩ := by
  induction rest generalizing references with
  | nil => simp [List.take_of_length_le hlimit]
  | cons l rest ih =>
    obtain ⟨hl, hrest⟩ := List.forall_mem_cons.mp hrest
    have hsee (found : Found) : q.see found l = if d.place = l.place then found
        else q.addReference found (l.toMention false) := by
      simp [see, line, mentions_iff.mpr hl, hq, SourceLine.toMention, mention, SourceLine.place]
    rw [List.foldl_cons, hsee]
    by_cases hplace : d.place = l.place
    · rw [if_pos hplace, ih hrest hlimit, List.filter_cons_of_neg (by simpa using hplace)]
    · rw [if_neg hplace, addReference_eq_take hlimit, ih hrest (List.length_take_le _ _),
        List.filter_cons_of_pos (by simpa using hplace)]
      simp only [take_take_append, List.append_assoc, List.map_cons, List.singleton_append]

/-- A run behind the definition, where none is known from the start. -/
theorem foldl_see_defined (hq : q.known = none) {d : Mention} {rest : List SourceLine}
    (hrest : ∀ l ∈ rest, Occurs q.name l.text) (hlimit : references.length ≤ q.limit) :
    rest.foldl q.see ⟨some d, references⟩ =
      ⟨some d, (references ++ rest.map (·.toMention false)).take q.limit⟩ := by
  induction rest generalizing references with
  | nil => simp [List.take_of_length_le hlimit]
  | cons l rest ih =>
    obtain ⟨hl, hrest⟩ := List.forall_mem_cons.mp hrest
    have hsee (r : List Mention) :
        q.see ⟨some d, r⟩ l = q.addReference ⟨some d, r⟩ (l.toMention false) := by
      simp [see, line, mentions_iff.mpr hl, hq, SourceLine.toMention]
    rw [List.foldl_cons, hsee, addReference_eq_take hlimit, ih hrest (List.length_take_le _ _)]
    simp only [take_take_append, List.append_assoc, List.map_cons, List.singleton_append]

/-- A run in search of the definition: the first line that declares the name is taken for it,
however many references there are by then. -/
theorem foldl_see_undefined (hq : q.known = none) {rest : List SourceLine}
    (hrest : ∀ l ∈ rest, Occurs q.name l.text) (hlimit : references.length ≤ q.limit) :
    rest.foldl q.see ⟨none, references⟩ =
      ⟨(rest.find? fun l => Declared q.name l.text).map (·.toMention true), (references ++
        (rest.eraseP fun l => Declared q.name l.text).map (·.toMention false)).take q.limit⟩ := by
  induction rest generalizing references with
  | nil => simp [List.take_of_length_le hlimit]
  | cons l rest ih =>
    obtain ⟨hl, hrest⟩ := List.forall_mem_cons.mp hrest
    by_cases hd : Declared q.name l.text
    · have hsee : q.see ⟨none, references⟩ l = ⟨some (l.toMention true), references⟩ := by
        simp [see, line, mentions_iff.mpr hl, hq, declares_iff.mpr hd, SourceLine.toMention]
      rw [List.foldl_cons, hsee, foldl_see_defined hq hrest hlimit,
        List.find?_cons_of_pos (by simpa using hd), List.eraseP_cons_of_pos (by simpa using hd)]
      rfl
    · have hno : declares q.name l.text = false := by simpa [← declares_iff] using hd
      have hsee :
          q.see ⟨none, references⟩ l = q.addReference ⟨none, references⟩ (l.toMention false) := by
        simp [see, line, mentions_iff.mpr hl, hq, hno, SourceLine.toMention]
      rw [List.foldl_cons, hsee, addReference_eq_take hlimit, ih hrest (List.length_take_le _ _),
        List.find?_cons_of_neg (by simpa using hd), List.eraseP_cons_of_neg (by simpa using hd)]
      simp only [take_take_append, List.append_assoc, List.map_cons, List.singleton_append]

end Run

end Request

/-! ## The search -/

section Search
variable (tree : FileTree) (c : Corpus) (hint : Hint) (name : String)

theorem mem_occurrences {l : SourceLine} :
    l ∈ occurrences tree c name ↔ l ∈ corpusLines tree c ∧ Occurs name.toList l.text := by
  rw [occurrences, List.mem_filter, decide_eq_true_eq]

theorem hintedLine_of_mem {l : SourceLine} (hl : l ∈ occurrences tree c name) :
    hintedLine tree c name (some l.place) = some l := by
  rw [← find?_place (pairwise_place_occurrences tree c name) hl, hintedLine]
  simp only [Option.some.injEq, eq_comm]

theorem hintedLine_eq_none {place : String × Int}
    (h : ∀ l ∈ occurrences tree c name, l.place ≠ place) :
    hintedLine tree c name (some place) = none := by
  rw [hintedLine, List.find?_eq_none]
  intro l hl
  simpa using (h l hl).symm

/-- A hint leads to the line at its place whenever the name occurs there, and to nothing else. -/
theorem hinted_value (place : String × Int) :
    (hinted tree c name.toList place).value =
      (hintedLine tree c name (some place)).map (·.toMention true) := by
  obtain ⟨path, number⟩ := place
  by_cases hpath : path ∈ c.paths
  · cases htext : (c.readText tree path).value with
    | none =>
      have hnone : hintedLine tree c name (some (path, number)) = none := by
        refine hintedLine_eq_none tree c name fun l hl hplace => ?_
        obtain ⟨-, text, hread, -⟩ := mem_corpusLines.mp ((mem_occurrences tree c name).mp hl).1
        obtain rfl : l.path = path := congrArg Prod.fst hplace
        rw [htext] at hread
        cases hread
      simp [hinted, hpath, htext, hnone]
    | some text =>
      cases hfound : (if 0 < number then (lines text)[number.toNat - 1]? else none).filter
          (mentions name.toList) with
      | none =>
        have hnone : hintedLine tree c name (some (path, number)) = none := by
          refine hintedLine_eq_none tree c name fun l hl hplace => ?_
          obtain ⟨hline, hoccurs⟩ := (mem_occurrences tree c name).mp hl
          obtain ⟨-, text', hread, hpos, hget⟩ := mem_corpusLines.mp hline
          obtain ⟨rfl, rfl⟩ : l.path = path ∧ (l.number : Int) = number := by
            simpa [SourceLine.place] using hplace
          obtain rfl : text = text' := Option.some.inj (htext.symm.trans hread)
          rw [if_pos (by omega), Int.toNat_natCast, hget] at hfound
          simp [mentions_iff.mpr hoccurs] at hfound
        simp [hinted, hpath, htext, hfound, hnone]
      | some line =>
        obtain ⟨hget, hmentions⟩ := Option.filter_eq_some_iff.mp hfound
        obtain ⟨hpos, hget⟩ : 0 < number ∧ (lines text)[number.toNat - 1]? = some line := by
          simpa using hget
        have hplace : (⟨path, number.toNat, line⟩ : SourceLine).place = (path, number) := by
          rw [SourceLine.place, Int.toNat_of_nonneg (Int.le_of_lt hpos)]
        have hnumber : 1 ≤ number.toNat := by omega
        have hsome := hintedLine_of_mem tree c name (l := ⟨path, number.toNat, line⟩)
          ((mem_occurrences tree c name).mpr
            ⟨mem_corpusLines.mpr ⟨hpath, text, htext, hnumber, hget⟩, mentions_iff.mp hmentions⟩)
        rw [hplace] at hsome
        simp [hinted, hpath, htext, hfound, hsome, SourceLine.toMention]
  · have hnone : hintedLine tree c name (some (path, number)) = none := by
      refine hintedLine_eq_none tree c name fun l hl hplace => hpath ?_
      obtain rfl : l.path = path := congrArg Prod.fst hplace
      exact (mem_corpusLines.mp ((mem_occurrences tree c name).mp hl).1).1
    simp [hinted, hpath, hnone]

/-- What is searched for under a name, with the definition that the hint leads to. -/
def request (limit : Int) : Request :=
  { name := name.toList
    limit := limit.toNat
    known := (hintedLine tree c name (hint name)).map (·.toMention true) }

theorem files_request (limit : Int) :
    ((request tree c hint name limit).files tree c c.paths
        ⟨(request tree c hint name limit).known, []⟩).value =
      ⟨(definitionOf tree c hint name).map (·.toMention true),
        ((referencesOf tree c hint name).take limit.toNat).map (·.toMention false)⟩ := by
  let q := request tree c hint name limit
  have hoccurs : ∀ l ∈ occurrences tree c name, Occurs q.name l.text := fun l hl => by
    exact ((mem_occurrences tree c name).mp hl).2
  have hrun : (q.files tree c c.paths ⟨q.known, []⟩).value =
      (occurrences tree c name).foldl q.see ⟨q.known, []⟩ := by
    rw [q.files_value, q.foldl_see_filter]
    rfl
  rw [hrun, List.map_take, referencesOf]
  cases hline : hintedLine tree c name (hint name) with
  | some d =>
    have hknown : q.known = some (d.toMention true) := congrArg (Option.map _) hline
    have hdefinition : definitionOf tree c hint name = some d := by
      rw [definitionOf, hline, Option.some_or]
    rw [hknown, Request.foldl_see_known hknown hoccurs (Nat.zero_le _), hdefinition]
    rfl
  | none =>
    have hknown : q.known = none := congrArg (Option.map _) hline
    have hdefinition : definitionOf tree c hint name =
        (occurrences tree c name).find? fun l => Declared name.toList l.text := by
      rw [definitionOf, hline, Option.none_or]
    rw [hknown, Request.foldl_see_undefined hknown hoccurs (Nat.zero_le _), hdefinition,
      eraseP_eq_filter_place (pairwise_place_occurrences tree c name)]
    rfl

theorem search_value {limit : Int} (hname : name ≠ "") :
    (search tree c name limit hint).value =
      let q := request tree c hint name limit
      let found := (q.files tree c c.paths ⟨q.known, []⟩).value
      { symbol := name, definition := found.definition, references := found.references,
        total := found.references.length } := by
  have hempty : name.isEmpty = false := by simpa using hname
  unfold search request
  cases hint name with
  | some place =>
    simp only [hempty, Bool.false_eq_true, if_false, Logged.value_bind, hinted_value]
    rfl
  | none =>
    have hnone : hintedLine tree c name none = none := by simp [hintedLine]
    simp only [hempty, Bool.false_eq_true, if_false, Logged.value_bind, hnone]
    rfl

/-- The search answers what the two passes answer, whatever the limit and the hint are. -/
theorem search_eq_twoPass (limit : Int) (hname : name ≠ "") :
    (search tree c name limit hint).value = twoPass tree c name limit hint := by
  have hlimit : (max limit 0).toNat = limit.toNat := by omega
  rw [search_value tree c hint name hname, twoPass, hlimit]
  simp only [files_request, List.length_map]

end Search

/-- Two files that mention `A`: the first one twice, the second one by a declaration and a use. -/
def sampleTree : FileTree :=
  ⟨[(["r"], .directory), (["r", "a.js"], .file (Utf8.encode "A();\nA();\n".toList)),
    (["r", "b.js"], .file (Utf8.encode "function A() {}\nA();\n".toList))]⟩

/-- The definition lies behind the last reference that the limit allows, and the hint is stale. -/
theorem search_eq_twoPass_behind_limit :
    let c := Corpus.ofPaths "/r" ["b.js", "a.js"]
    let hint : Hint := fun _ => some ("a.js", 7)
    "A" ≠ "" ∧ (search sampleTree c "A" 1 hint).value = twoPass sampleTree c "A" 1 hint ∧
      twoPass sampleTree c "A" 1 hint =
        { symbol := "A"
          definition := some ⟨"b.js", 1, "function A() {}", true⟩
          references := [⟨"a.js", 1, "A();", false⟩]
          total := 1 } :=
  ⟨by decide, search_eq_twoPass _ _ _ _ _ (by decide), by decide +kernel⟩

/-! ## Searches without a limit -/

section Unlimited
variable (tree : FileTree) (c : Corpus) (hint : Hint) (name : String)

/-- The references to a name without a limit: none of them can be missing where the limit is the
number of all lines. -/
def allReferences : List Mention :=
  (search tree c name (corpusLines tree c).length hint).value.references

theorem search_empty (limit : Int) : (search tree c "" limit hint).value = { symbol := "" } := rfl

@[simp] theorem allReferences_empty : allReferences tree c hint "" = [] := rfl

theorem length_referencesOf_le :
    (referencesOf tree c hint name).length ≤ (corpusLines tree c).length :=
  (List.length_filter_le _ _).trans (List.length_filter_le _ _)

theorem allReferences_eq (hname : name ≠ "") :
    allReferences tree c hint name = (referencesOf tree c hint name).map (·.toMention false) := by
  rw [allReferences, search_value tree c hint name hname]
  simp only [files_request, Int.toNat_natCast]
  rw [List.take_of_length_le (length_referencesOf_le tree c hint name)]

/-- A limit cuts the list of all references and does nothing else to it. -/
theorem search_references (limit : Int) :
    (search tree c name limit hint).value.references =
      (allReferences tree c hint name).take limit.toNat := by
  by_cases hname : name = ""
  · subst hname
    rw [search_empty, allReferences_empty, List.take_nil]
  · rw [allReferences_eq tree c hint name hname, search_value tree c hint name hname]
    simp only [files_request, List.map_take]

theorem path_mem_of_mem_allReferences {m : Mention} (h : m ∈ allReferences tree c hint name) :
    m.path ∈ c.paths := by
  by_cases hname : name = ""
  · subst hname
    cases h
  · rw [allReferences_eq tree c hint name hname] at h
    obtain ⟨l, hl, rfl⟩ := List.mem_map.mp h
    have hline := (mem_occurrences tree c name).mp (List.mem_filter.mp hl).1
    exact (mem_corpusLines.mp hline.1).1

/-- The definition does not depend on the limit. -/
theorem search_definition (limit limit' : Int) :
    (search tree c name limit hint).value.definition =
      (search tree c name limit' hint).value.definition := by
  by_cases hname : name = ""
  · subst hname
    rw [search_empty, search_empty]
  · rw [search_value tree c hint name hname, search_value tree c hint name hname]
    simp only [files_request]

end Unlimited

end CodeAtlas.References
