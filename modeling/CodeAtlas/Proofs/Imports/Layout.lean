import CodeAtlas.Proofs.Imports.Statement
import Mathlib.Data.List.SplitBy
import Mathlib.Data.List.Nodup
import Mathlib.Data.List.Perm.Subperm

/-! # Layout of import statements

A layout is a sequence of statements with blanks and semicolons between them. Specifiers are
extracted line by line, so that the layout matters: the statements fall into rows, one for each line
with specifiers on it, and of a row at most one statement of each kind is found. The specifiers are
those of all statements, in order, just for legible layouts: each statement is shown on the line of
its specifier, and statements of one row are of different kinds in a fixed order.
-/
namespace CodeAtlas.Imports.Script
open Text

/-! ## Lines of code -/

/-- The specifiers of a text, as lists of characters. -/
def gather (text : List Char) : List (List Char) := (boundedLines text).flatMap lineSpecifiers

theorem lineSpecifiers_of_isCode {line : List Char} (h : isCode line = true) :
    lineSpecifiers line = [] := by
  have hsource := reads_fromClause.search_of_isCode h
  rw [lineSpecifiers, search_importFrom_of_none hsource, reads_sideEffect.eq_none_of_isCode h,
    reads_require.search_of_isCode h]
  rfl

theorem lineSpecifiers_nil : lineSpecifiers [] = [] := lineSpecifiers_of_isCode isCode_nil

theorem gather_of_isCode {text : List Char} (h : isCode text = true) : gather text = [] :=
  flatMap_boundedLinesFrom_eq_nil lineSpecifiers_nil (fun _ => lineSpecifiers_of_isCode) rfl h

/-- Only the last line of code matters to what follows. -/
theorem gather_append {front : List Char} (h : isCode front = true) (rest : List Char) :
    gather (front ++ rest) = gather (lastLine front ++ rest) := by
  cases hbroken : isBroken front with
  | false => rw [lastLine_of_not_isBroken hbroken]
  | true =>
    obtain ⟨before, c, hc, hcut⟩ := exists_cut_lastLine hbroken
    have hbefore : isCode before = true := isCode_of_mem h fun d hd =>
        hcut ▸ List.mem_append_left _ hd
    rw [hcut, lastLine_append_cons _ hc, List.append_assoc, List.cons_append, gather,
      flatMap_boundedLines_append lineSpecifiers_nil _ hc]
    have hnone := gather_of_isCode hbefore
    rw [gather] at hnone
    rw [hnone, List.nil_append, lastLine_of_not_isBroken (isBroken_lastLine front), gather]

/-- A line ends at the first boundary in the code behind it. -/
theorem gather_line {line code : List Char} (hline : isBroken line = false)
    (hcode : isCode code = true) (hbroken : isBroken code = true) (rest : List Char) :
    gather (line ++ (code ++ rest)) = lineSpecifiers (line ++ firstLine code) ++
      gather (code ++ rest) := by
  obtain ⟨c, behind, hc, hcut⟩ := exists_cut_firstLine hbroken
  have hwhole : isBroken (line ++ firstLine code) = false := by
    rw [isBroken_append, hline, isBroken_firstLine]; rfl
  have hcode' := gather_of_isCode (isCode_firstLine hcode)
  have hleft : line ++ (code ++ rest) = line ++ firstLine code ++ c :: (behind ++ rest) := by
    conv_lhs => rw [hcut]
    simp only [List.append_assoc, List.cons_append]
  have hright : code ++ rest = firstLine code ++ c :: (behind ++ rest) := by
    conv_lhs => rw [hcut]
    simp only [List.append_assoc, List.cons_append]
  rw [gather] at hcode'
  rw [hleft, hright, gather, gather, flatMap_boundedLines_append lineSpecifiers_nil _ hc,
    flatMap_boundedLines_append lineSpecifiers_nil _ hc, hcode', List.nil_append,
    flatMap_boundedLines_of_none lineSpecifiers_nil (isBroken_eq_false_iff.mp hwhole)]

theorem gather_line_end {line code : List Char} (hline : isBroken line = false)
    (hcode : isCode code = true) :
    gather (line ++ code) = lineSpecifiers (line ++ firstLine code) := by
  cases hbroken : isBroken code with
  | true =>
    have h := gather_line hline hcode hbroken []
    rwa [List.append_nil, gather_of_isCode hcode, List.append_nil] at h
  | false =>
    have hwhole : isBroken (line ++ code) = false := by rw [isBroken_append, hline, hbroken]; rfl
    rw [firstLine_of_not_isBroken hbroken]
    exact flatMap_boundedLines_of_none lineSpecifiers_nil (isBroken_eq_false_iff.mp hwhole)

/-! ## Layouts -/

/-- The text of statements behind `front`. -/
def textFrom (front : List Char) (statements : List Statement) (after : List Char) : List Char :=
  match statements with
  | [] => front ++ after
  | s :: statements => front ++ s.lead ++ (s.quoted.text ++ textFrom s.trail statements after)

/-- Statements kept apart by semicolons or line boundaries. -/
structure Layout where
  statements : List Statement
  after : List Char
  isFree_after : after.all isFree = true
  separated : ∀ s ∈ statements.tail, s.before.any isSeparator = true

/-- The statements of a line are all shown and of different kinds, in this order of kinds. -/
def isLegible (row : List Statement) : Bool :=
  row.all Statement.isShown && (row.map Statement.kind).isSublist [.source, .effect, .call]

namespace Layout

def text (layout : Layout) : List Char := textFrom [] layout.statements layout.after

/-- The statements by the lines of their specifiers. -/
def rows (layout : Layout) : List (List Statement) := layout.statements.splitBy Statement.sameLine

/-- The statements that are found, line by line. -/
def found (layout : Layout) : List Statement := layout.rows.flatMap Script.found

def isLegible (layout : Layout) : Bool := layout.rows.all Script.isLegible

/-- No specifier with others on its line ends like a lead. -/
def isPlain (layout : Layout) : Bool :=
  layout.rows.all fun row => row.length ≤ 1 || row.all Statement.isPlain

end Layout

def Statement.name (s : Statement) : String := String.ofList s.specifier

/-! ## Line by line -/

/-- What is in front of the next specifier, or behind the last one. -/
def codeBehind (statements : List Statement) (after : List Char) : List Char :=
  match statements with
  | [] => after
  | s :: _ => s.lead

section Lines
variable {after : List Char} (hafter : isCode after = true)
include hafter

theorem isCode_codeBehind (statements : List Statement) :
    isCode (codeBehind statements after) = true := by
  cases statements with
  | nil => exact hafter
  | cons s statements => exact s.isCode_lead

omit hafter in
theorem Statement.not_isBroken_text (s : Statement) : isBroken s.quoted.text = false := by
  have hmark {c : Char} (h : isMark c = true) : isLineBoundary c = false := by
    rw [isMark, Bool.or_eq_true, beq_iff_eq, beq_iff_eq] at h
    rcases h with rfl | rfl <;> decide
  rw [isBroken_eq_false_iff]
  intro c hc
  rw [Quoted.text, List.mem_cons, List.mem_append, List.mem_singleton] at hc
  rcases hc with rfl | hc | rfl
  · exact hmark s.quoted.isMark_opening
  · exact isBroken_eq_false_iff.mp s.not_isBroken_specifier c hc
  · exact hmark s.quoted.isMark_closing

/-- A line that has been read up to the specifier of `p` goes on to the last statement
of its row. -/
theorem gather_row {line : List Char} (hline : isBroken line = false) (p : Statement)
    (row : List Statement) {more : List Statement}
    (hchain : (p :: row).IsChain fun s t => s.sameLine t = true)
    (hmore : ∀ t ∈ more.head?, ((p :: row).getLast (List.cons_ne_nil p row)).sameLine t = false) :
    gather (line ++ textFrom p.trail (row ++ more) after) =
      lineSpecifiers (line ++ rowLine p.trail row (codeBehind more after)) ++
        gather (textFrom ((p :: row).getLast (List.cons_ne_nil p row)).trail more after) := by
  induction row generalizing line p with
  | nil =>
    rw [List.nil_append, List.getLast_singleton, rowLine]
    cases more with
    | nil =>
      have hcode : isCode (p.trail ++ after) = true := by
        rw [isCode_append, p.isCode_trail, hafter]; rfl
      rw [textFrom, gather_line_end hline hcode, gather_of_isCode hcode,
        List.append_nil, codeBehind]
    | cons t more =>
      have hbroken : isBroken (p.trail ++ t.lead) = true := (Bool.not_eq_false' _).mp (hmore t rfl)
      exact gather_line hline (t.isCode_front p.isCode_trail) hbroken _
  | cons s row ih =>
    obtain ⟨hsame, hchain⟩ := List.isChain_cons_cons.mp hchain
    have hlead : isBroken (p.trail ++ s.lead) = false := (Bool.not_eq_true' _).mp hsame
    have hline' : isBroken (line ++ (p.trail ++ s.lead ++ s.quoted.text)) = false := by
      rw [isBroken_append, isBroken_append, hline, hlead, s.not_isBroken_text]
      rfl
    have hnext := ih hline' s hchain hmore
    rw [List.cons_append, textFrom, rowLine, lastLine_of_not_isBroken hlead, List.getLast_cons_cons]
    simpa only [List.append_assoc] using hnext

/-- Row by row, what is found there. -/
theorem gather_rows {rows : List (List Statement)} (hne : [] ∉ rows)
    (hchain : ∀ row ∈ rows, row.IsChain fun s t => s.sameLine t = true)
    (hends : rows.IsChain fun row row' => ∃ h h', (row.getLast h).sameLine (row'.head h') = false)
    (hplain : ∀ row ∈ rows, row.length ≤ 1 ∨ ∀ s ∈ row, s.isPlain = true) {front : List Char}
    (hfront : isCode front = true) (hfirst : front = [] ∨ ∀ s ∈ rows.flatten.head?,
    s.before.any isSeparator = true) (hlater :
    ∀ s ∈ rows.flatten.tail, s.before.any isSeparator = true) :
    gather (textFrom front rows.flatten after) = (rows.flatMap found).map Statement.specifier := by
  induction rows generalizing front with
  | nil =>
    have hcode : isCode (front ++ after) = true := by rw [isCode_append, hfront, hafter]; rfl
    exact gather_of_isCode hcode
  | cons row rows ih =>
    rw [List.mem_cons, not_or] at hne
    obtain ⟨s, row, rfl⟩ := List.exists_cons_of_ne_nil (Ne.symm hne.1)
    obtain ⟨hrowChain, hchain⟩ := List.forall_mem_cons.mp hchain
    obtain ⟨hrowPlain, hplain⟩ := List.forall_mem_cons.mp hplain
    obtain ⟨hend, hends⟩ := List.isChain_cons.mp hends
    rw [List.flatten_cons, List.cons_append, List.tail_cons] at hlater
    rw [List.flatten_cons, List.cons_append, List.head?_cons] at hfirst
    obtain ⟨hrowLater, hlater⟩ := List.forall_mem_append.mp hlater
    have hrow : IsRow front (s :: row) := ⟨hfront, hrowChain, hrowPlain⟩
    have hmore : ∀ t ∈ rows.flatten.head?,
        ((s :: row).getLast (List.cons_ne_nil s row)).sameLine t = false := by
      cases rows with
      | nil => exact fun t ht => absurd ht (Option.not_mem_none t)
      | cons row' rows =>
        cases row' with
        | nil => exact absurd List.mem_cons_self hne.2
        | cons t row' =>
          obtain ⟨_, _, hbreak⟩ := hend (t :: row') rfl
          intro t' ht'
          obtain rfl : t = t' := Option.some.inj ht'
          exact hbreak
    have hline : isBroken (lastLine (front ++ s.lead) ++ s.quoted.text) = false := by
      rw [isBroken_append, isBroken_lastLine, s.not_isBroken_text]
      rfl
    have hrowLine := lineSpecifiers_rowLine hrow (isCode_codeBehind hafter rows.flatten)
      (hfirst.imp_right fun h => h s rfl) hrowLater
    have hrest := ih hne.2 hchain hends hplain
      ((s :: row).getLast (List.cons_ne_nil s row)).isCode_trail
      (.inr fun t ht => hlater t (List.mem_of_mem_head? ht))
      fun t ht => hlater t (List.mem_of_mem_tail ht)
    calc gather (textFrom front ((s :: row) :: rows).flatten after)
      _ = gather (lastLine (front ++ s.lead) ++
        (s.quoted.text ++ textFrom s.trail (row ++ rows.flatten) after)) :=
        gather_append (s.isCode_front hfront) _
      _ = lineSpecifiers (rowLine front (s :: row) (codeBehind rows.flatten after)) ++
          gather (textFrom ((s :: row).getLast (List.cons_ne_nil s row)).trail
            rows.flatten after) := by
        rw [← List.append_assoc, gather_row hafter hline s row hrowChain hmore, rowLine,
          List.append_assoc]
      _ = (((s :: row) :: rows).flatMap found).map Statement.specifier := by
        rw [hrowLine, hrest, List.flatMap_cons, List.map_append]

end Lines

/-! ## Legible layouts -/

section Legible
variable {row : List Statement}

theorem kind_of_find? {kind : Kind} {s : Statement}
    (h : (row.find? fun s => s.kind == kind && s.isShown) = some s) :
    s.kind = kind ∧ s.isShown = true := by
  have hs := List.find?_some h
  rwa [Bool.and_eq_true, beq_iff_eq] at hs

theorem isShown_of_mem_found {s : Statement} (h : s ∈ found row) : s.isShown = true := by
  obtain ⟨kind, -, hfind⟩ := List.mem_filterMap.mp h
  exact (kind_of_find? hfind).2

theorem found_subset : found row ⊆ row := by
  intro s h
  obtain ⟨kind, -, hfind⟩ := List.mem_filterMap.mp h
  exact List.mem_of_find?_eq_some hfind

theorem map_kind_found_sublist :
    ((found row).map Statement.kind).Sublist [.source, .effect, .call] := by
  have hfilter : (found row).map Statement.kind = [Kind.source, .effect, .call].filter fun kind =>
      (row.find? fun s => s.kind == kind && s.isShown).isSome := by
    rw [found, List.map_filterMap, ← List.filterMap_eq_filter]
    apply List.filterMap_congr
    intro kind _
    cases hfind : row.find? fun s => s.kind == kind && s.isShown with
    | none => simp [Option.guard, hfind]
    | some s => simp [Option.guard, hfind, (kind_of_find? hfind).1]
  rw [hfilter]
  exact List.filter_sublist

theorem length_found_le : (found row).length ≤ row.length := by
  have hnodup : (found row).Nodup := by
    have hkinds : [Kind.source, Kind.effect, Kind.call].Nodup := by decide
    exact List.Nodup.of_map _ (hkinds.sublist map_kind_found_sublist)
  exact (hnodup.subperm found_subset).length_le

/-- Statements that are shown and of different kinds are found one after the other. -/
theorem filterMap_find?_of_sublist {kinds : List Kind} (hkinds : kinds.Nodup)
    (hshown : ∀ s ∈ row, s.isShown = true) (h : (row.map Statement.kind).Sublist kinds) :
    (kinds.filterMap fun kind => row.find? fun s => s.kind == kind && s.isShown) = row := by
  induction kinds generalizing row with
  | nil =>
    rw [List.sublist_nil, List.map_eq_nil_iff] at h
    subst h
    rfl
  | cons kind kinds ih =>
    obtain ⟨hkind, hrest⟩ := List.nodup_cons.mp hkinds
    rw [List.filterMap_cons]
    rcases List.sublist_cons_iff.mp h with h | ⟨kinds', hmap, h⟩
    · -- no statement of the row is of the first kind
      have hnone : (row.find? fun s => s.kind == kind && s.isShown) = none := by
        rw [List.find?_eq_none]
        intro s hs hfound
        rw [Bool.and_eq_true, beq_iff_eq] at hfound
        exact hkind (hfound.1 ▸ h.subset (List.mem_map_of_mem hs))
      rw [hnone]
      exact ih hrest hshown h
    · -- the first statement is of the first kind, and no other one matters to it
      obtain ⟨s, row, rfl, rfl, rfl⟩ := List.map_eq_cons_iff.mp hmap
      obtain ⟨hs, hshown⟩ := List.forall_mem_cons.mp hshown
      have hfirst : (s.kind == s.kind && s.isShown) = true := by
        rw [hs, beq_self_eq_true, Bool.and_self]
      rw [List.find?_cons, hfirst]
      refine congrArg (s :: ·) ((List.filterMap_congr ?_).trans (ih hrest hshown h))
      intro kind hmem
      have hother : s.kind ≠ kind := by
        rintro rfl
        exact hkind hmem
      rw [List.find?_cons, beq_eq_false_iff_ne.mpr hother, Bool.false_and]

theorem found_eq_self_iff : found row = row ↔ isLegible row = true := by
  rw [isLegible, Bool.and_eq_true, List.all_eq_true, List.isSublist_iff_sublist]
  constructor
  · intro h
    refine ⟨fun s hs => isShown_of_mem_found (h ▸ hs), ?_⟩
    rw [← h]
    exact map_kind_found_sublist
  · rintro ⟨hshown, hkinds⟩
    exact filterMap_find?_of_sublist (by decide) hshown hkinds

theorem length_flatMap_found_le (rows : List (List Statement)) :
    (rows.flatMap found).length ≤ rows.flatten.length := by
  induction rows with
  | nil => exact le_rfl
  | cons row rows ih =>
    rw [List.flatMap_cons, List.flatten_cons, List.length_append, List.length_append]
    exact Nat.add_le_add length_found_le ih

/-- Nothing is missing in a row if nothing is missing in all of them. -/
theorem forall_found_eq_of_flatMap {rows : List (List Statement)}
    (h : rows.flatMap found = rows.flatten) : ∀ row ∈ rows, found row = row := by
  induction rows with
  | nil => exact fun row hrow => absurd hrow List.not_mem_nil
  | cons row rows ih =>
    rw [List.flatMap_cons, List.flatten_cons] at h
    have hrow : (found row).length ≤ row.length := length_found_le
    have hrows := length_flatMap_found_le rows
    have hlength : (found row).length = row.length := by
      have hboth := congrArg List.length h
      rw [List.length_append, List.length_append] at hboth
      omega
    obtain ⟨hfirst, hrest⟩ := List.append_inj h hlength
    exact List.forall_mem_cons.mpr ⟨hfirst, ih hrest⟩

end Legible

/-! ## The specifiers of a layout -/

theorem Layout.found_eq_statements_iff (layout : Layout) :
    layout.found = layout.statements ↔ layout.isLegible = true := by
  have hflatten : layout.rows.flatten = layout.statements := List.flatten_splitBy _ _
  rw [Layout.found, Layout.isLegible, List.all_eq_true, ← hflatten]
  constructor
  · intro h row hrow
    exact found_eq_self_iff.mp (forall_found_eq_of_flatMap h row hrow)
  · intro h
    rw [List.flatMap_def, List.map_congr_left fun row hrow =>
      found_eq_self_iff.mpr (h row hrow), List.map_id']

theorem Layout.gather_text {layout : Layout} (hplain : layout.isPlain = true) :
    gather layout.text = layout.found.map Statement.specifier := by
  obtain ⟨hflatten, hne, hchain, hends⟩ := List.splitBy_eq_iff.mp
      (rfl : layout.statements.splitBy _ = layout.rows)
  have hlater : ∀ s ∈ layout.rows.flatten.tail, s.before.any isSeparator = true :=
    hflatten ▸ layout.separated
  have hrows : ∀ row ∈ layout.rows, row.length ≤ 1 ∨ ∀ s ∈ row, s.isPlain = true := by
    simpa [Layout.isPlain] using hplain
  have hgather := gather_rows (isCode_of_isFree layout.isFree_after) hne hchain hends hrows
    isCode_nil (.inl rfl) hlater
  rwa [← hflatten] at hgather

/-- The specifiers of a layout are those of the statements that are found line by line. For a
legible layout these are all statements in order, and for no other. In rows of several statements
the specifiers must be plain. -/
theorem specifiers_layout (layout : Layout) (hplain : layout.isPlain = true) :
    (layout.isLegible = true → specifiers layout.text = layout.statements.map Statement.name) ∧
      specifiers layout.text = layout.found.map Statement.name ∧
      (layout.found = layout.statements → layout.isLegible = true) := by
  have hfound : specifiers layout.text = layout.found.map Statement.name := by
    change (gather layout.text).map String.ofList = _
    rw [Layout.gather_text hplain, List.map_map]
    rfl
  refine ⟨fun h => ?_, hfound, layout.found_eq_statements_iff.mp⟩
  rw [hfound, layout.found_eq_statements_iff.mpr h]

def oneSpace : { gap // IsGap gap } := ⟨[' '], by decide⟩

def noRoom : { room : List Char // room.all isBlank = true } := ⟨[], rfl⟩

/-- A statement with its specifier in single quotation marks. -/
def Statement.quote (before : String) (form : Form) (specifier : String)
    (hne : specifier.toList ≠ [] := by decide) (hcode : isCode specifier.toList = true := by decide)
    (hbefore : before.toList.all isFree = true := by decide)
    (hline : isBroken specifier.toList = false := by decide) : Statement :=
  ⟨before.toList, form, ⟨'\'', specifier.toList, '\'', rfl, rfl, hne, hcode⟩, hbefore, hline⟩

/-- An import on one line with a call, an import for effect, and an export. -/
def oneByOne : Layout where
  statements := [
    .quote "" (.source .importing oneSpace ⟨"a".toList, by decide⟩ oneSpace oneSpace) "x",
    .quote "; " (.call noRoom noRoom noRoom) "./y",
    .quote "\n\n  " (.effect oneSpace) "z",
    .quote "\r\n" (.source .exporting oneSpace ⟨"*".toList, by decide⟩ oneSpace oneSpace) "@w/v"]
  after := "\n".toList
  isFree_after := by decide
  separated := by decide

theorem specifiers_layout_one_by_one :
    oneByOne.isPlain = true ∧ oneByOne.isLegible = true ∧
      specifiers oneByOne.text = ["x", "./y", "z", "@w/v"] := by
  have hplain : oneByOne.isPlain = true := by decide +kernel
  have hlegible : oneByOne.isLegible = true := by decide +kernel
  exact ⟨hplain, hlegible, (specifiers_layout oneByOne hplain).1 hlegible⟩

/-- An import whose clause is broken over lines. -/
def bracketed : Layout where
  statements := [
    .quote "" (.source .importing oneSpace ⟨"\x7b\n  a,\n  b,\n\x7d".toList, by decide⟩ oneSpace
      oneSpace) "./mod"]
  after := ";\n".toList
  isFree_after := by decide
  separated := by decide

/-- Two imports on one line. -/
def sharedLine : Layout where
  statements := [
    .quote "" (.source .importing oneSpace ⟨"a".toList, by decide⟩ oneSpace oneSpace) "x",
    .quote "; " (.source .importing oneSpace ⟨"b".toList, by decide⟩ oneSpace oneSpace) "y"]
  after := "\n".toList
  isFree_after := by decide
  separated := by decide

/-- A call and an import on one line. -/
def callFirst : Layout where
  statements := [
    .quote "" (.call noRoom noRoom noRoom) "x",
    .quote "; " (.source .importing oneSpace ⟨"b".toList, by decide⟩ oneSpace oneSpace) "y"]
  after := "\n".toList
  isFree_after := by decide
  separated := by decide

/-- A specifier that ends like a lead, with a call behind it. -/
def leadInside : Layout where
  statements :=
    [.quote "" (.effect oneSpace) "x from ", .quote "; " (.call noRoom noRoom noRoom) "y"]
  after := "\n".toList
  isFree_after := by decide
  separated := by decide

/-- The layout matters: a clause over several lines hides its specifier, of two imports on a line
the second is lost, a call and an import change places, and what looks like a lead inside a
specifier is taken for one. -/
theorem specifiers_layout_matters :
    (specifiers bracketed.text = [] ∧ bracketed.statements.map Statement.name = ["./mod"]) ∧
      (specifiers sharedLine.text = ["x"] ∧ sharedLine.statements.map Statement.name = ["x", "y"]) ∧
      (specifiers callFirst.text = ["y", "x"] ∧
        callFirst.statements.map Statement.name = ["x", "y"]) ∧
      leadInside.isLegible = true ∧
        specifiers leadInside.text = ["; require(", "x from ", "y"] := by
  decide +kernel

end CodeAtlas.Imports.Script
