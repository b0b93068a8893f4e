import CodeAtlas.Go.Outline
import CodeAtlas.Proofs.Go.Place

/-! # Where declared names stand

A declared name is a whole word on the line that is recorded for it. This comes from what stands
around it: in front of it a keyword, a sign or a terminator, and behind it whatever the declaration
goes on with. The line of a function is that of its keyword, which is another one if the header is
broken in front of the name.
-/
namespace CodeAtlas.Go
open Text Reader

/-- The header of a function up to its name. -/
def Grammar.functionHeader (g : Grammar) : Reader String := do
  keyword "func"
  if (← next?) == some '(' then g.parameters *> identifier else identifier

/-- The header of a function that begins on the given line reaches the name on a later one. -/
def BreaksBeforeName (text : List Char) (name : String) (line : Nat) : Prop :=
  ∃ depth c d, Within text c ∧ c.line = line ∧
    Reads (Grammar.ofDepth depth).functionHeader c name d ∧ line < d.line

/-- The name is recorded with a line of the text. It stands there, if it begins and ends like a word
and no header is broken in front of it. -/
structure Recorded (text : List Char) (name : String) (line : Nat) : Prop where
  name_ne : name.toList ≠ []
  exists_place : ∃ c, Within text c ∧ c.line = line
  standsOn : HasWordEnds name.toList → StandsOn text name.toList line ∨
    BreaksBeforeName text name line

theorem ValueSpec.names_subset_marked (spec : ValueSpec) : spec.names ⊆ spec.marked := by
  refine List.cons_subset_cons _ fun n hn => ?_
  obtain ⟨other, hother, rfl⟩ := List.mem_map.mp hn
  exact List.mem_flatMap.mpr ⟨other, hother, by simp⟩

/-- No type of the grammar begins with a stray character. -/
def Grammar.RefusesStray (g : Grammar) : Prop :=
  ∀ ctx c shape d, IsStray c → ¬ Reads (g.type ctx) c shape d

theorem refusesStray_ofDepth (depth : Nat) : (Grammar.ofDepth depth).RefusesStray := by
  intro ctx c shape d hstray
  cases depth with
  | zero => exact not_reads_fail
  | succ depth => exact hstray.not_reads_typeRule

namespace Grammar
variable {text : List Char} {g : Grammar} {c d : Cursor}

/-! ## Names -/

theorem reads_boundName {n : BoundName} :
    Reads boundName c n d ↔ c.skip.identifier? = some (n.text, d) ∧ n.line = c.skip.line := by
  simp only [boundName, reads_behindGap, Option.map_eq_some_iff, Prod.mk.injEq, Prod.exists]
  constructor
  · rintro ⟨name, _, h, rfl, rfl⟩
    exact ⟨h, rfl⟩
  · rintro ⟨h, hline⟩
    exact ⟨n.text, d, h, by rw [← hline], rfl⟩

theorem recorded_of_boundName {n : BoundName} (hc : IsOpen text c) (h : Reads boundName c n d)
    (hd : ¬ IsStray d) : Recorded text n.text n.line := by
  obtain ⟨hname, hline⟩ := reads_boundName.mp h
  have hword := isWordAt_of_identifier? hname
  refine ⟨hword.ne_nil, ⟨c.skip, hc.within.leads (c.leads_skip true), hline.symm⟩,
    fun _ => Or.inl ?_⟩
  rw [hline]
  exact standsOn_of_isWordAt hc hword (hword.peek?_any hd)

theorem recorded_comma (hc : Within text c) : Recorded text "," c.line :=
  ⟨by decide, ⟨c, hc, rfl⟩, fun hends => absurd hends (by decide)⟩

/-- Names behind commas, up to something that is not stray. -/
theorem recorded_of_commaNames {crossing : Bool} {others : List (Nat × BoundName)}
    (hc : Within text c) (h : ReadsAll (commaName crossing) c others d) (hd : ¬ IsStray d) :
    ¬ IsStray c ∧ ∀ other ∈ others,
      Recorded text "," other.1 ∧ Recorded text other.2.text other.2.line := by
  induction h with
  | nil c => exact ⟨hd, List.forall_mem_nil _⟩
  | cons h _ ih =>
    obtain ⟨hnext, hrest⟩ := ih (hc.leads h.leads) hd
    simp only [commaName, reads_bind, reads_start, reads_pure] at h
    obtain ⟨_, _, ⟨rfl, rfl⟩, _, e, hcomma, n, _, hname, rfl, rfl⟩ := h
    have hplace := hc.leads (Cursor.leads_skip _ crossing)
    have hopen := isOpen_of_token hplace hcomma (by decide) (by decide)
    refine ⟨fun hstray => ?_, List.forall_mem_cons.mpr ⟨⟨recorded_comma hplace, ?_⟩, hrest⟩⟩
    · rw [hstray.skip_eq crossing] at hcomma
      exact hstray.not_reads_token (by decide) hcomma
    · exact recorded_of_boundName hopen hname hnext

/-- A list of names records the commas too, in front of something that is not stray. -/
theorem recorded_of_nameList {crossing : Bool} {spec : ValueSpec} (hc : IsOpen text c)
    (h : Reads (nameList crossing) c spec d) (hd : ¬ IsStray d) :
    ∀ n ∈ spec.marked, Recorded text n.text n.line := by
  simp only [nameList, reads_bind, reads_pure] at h
  obtain ⟨first, e, hfirst, others, _, hothers, rfl, rfl⟩ := h
  obtain ⟨hnext, hrest⟩ :=
    recorded_of_commaNames (hc.within.leads hfirst.leads) hothers.of_many hd
  refine List.forall_mem_cons.mpr ⟨recorded_of_boundName hc hfirst hnext, fun n hn => ?_⟩
  obtain ⟨other, hother, hn⟩ := List.mem_flatMap.mp hn
  simp only [List.mem_cons, List.not_mem_nil, or_false] at hn
  rcases hn with rfl | rfl
  · exact (hrest other hother).1
  · exact (hrest other hother).2

/-! ## Constants and variables -/

theorem not_reads_equals_of_isStray {crossing : Bool} {u : Unit} (h : IsStray c) :
    ¬ Reads (equals crossing) c u d :=
  h.not_reads_token (by decide)

theorem not_isStray_of_constantValue (hg : g.RefusesStray) {u : Unit}
    (h : Reads g.constantValue c u d) : ¬ IsStray c := by
  intro hstray
  simp only [constantValue, reads_bind, reads_next?, reads_check] at h
  obtain ⟨_, _, ⟨rfl, rfl⟩, _, _, ⟨-, rfl⟩, _, e, hequals, -⟩ := h
  rcases hequals.of_orElse with hequals | htyped
  · exact not_reads_equals_of_isStray hstray hequals
  · obtain ⟨shape, e', htype, -⟩ := reads_seqRight.mp htyped
    exact hg _ _ _ _ hstray htype

theorem not_isStray_of_variableValue (hg : g.RefusesStray) {given : Bool}
    (h : Reads g.variableValue c given d) : ¬ IsStray c := by
  intro hstray
  rcases h.of_orElse with h | h
  · obtain ⟨-, _, h⟩ := reads_yielding.mp h
    obtain ⟨_, e, hequals, -⟩ := reads_seqRight.mp h
    exact not_reads_equals_of_isStray hstray hequals
  · simp only [reads_bind] at h
    obtain ⟨shape, e, htype, -⟩ := h
    exact hg _ _ _ _ hstray htype

/-- A specification records its names and the commas, in front of something that is not stray. -/
def Records (text : List Char) (spec : Reader (ValueSpec × Bool)) : Prop :=
  ∀ c found d, IsOpen text c → Reads spec c found d → ¬ IsStray d →
    ∀ n ∈ found.1.marked, Recorded text n.text n.line

theorem records_constantSpec (hg : g.RefusesStray) : Records text g.constantSpec := by
  intro c found d hc h hd
  simp only [constantSpec, reads_bind, reads_pure] at h
  obtain ⟨names, e, hnames, given, _, hgiven, rfl, rfl⟩ := h
  apply recorded_of_nameList hc hnames
  rcases hgiven.of_perhaps with ⟨u, -, hvalue⟩ | ⟨-, rfl⟩
  · exact not_isStray_of_constantValue hg hvalue
  · exact hd

theorem records_variableSpec (hg : g.RefusesStray) : Records text g.variableSpec := by
  intro c found d hc h hd
  simp only [variableSpec, reads_bind, reads_pure] at h
  obtain ⟨names, e, hnames, given, _, hgiven, rfl, rfl⟩ := h
  exact recorded_of_nameList hc hnames (not_isStray_of_variableValue hg hgiven)

/-- In a group each specification stands behind the parenthesis or behind a terminator, and in
front of one. -/
theorem recorded_of_specs {spec : Reader (ValueSpec × Bool)} {specs : List (ValueSpec × Bool)}
    (hspec : Records text spec) (hc : IsOpen text c) (h : ReadsAll (spec <* terminator) c specs d) :
    ∀ found ∈ specs, ∀ n ∈ found.1.marked, Recorded text n.text n.line := by
  induction h with
  | nil c => exact List.forall_mem_nil _
  | cons h _ ih =>
    obtain ⟨e, _, hread, hend⟩ := reads_seqLeft.mp h
    have hfirst := hspec _ _ _ hc hread fun hstray => hstray.not_reads_terminator hend
    have hrest := ih (isOpen_of_terminator (hc.within.leads hread.leads) hend)
    exact List.forall_mem_cons.mpr ⟨hfirst, hrest⟩

theorem recorded_of_valueDeclaration {word : String} {spec : Reader (ValueSpec × Bool)}
    (hspec : Records text spec) {found : Specs ValueSpec × Bool} (hc : Within text c)
    (h : Reads (valueDeclaration word spec) c found d) (hd : ¬ IsStray d) :
    ∀ names ∈ found.1.flatten, ∀ n ∈ names.marked, Recorded text n.text n.line := by
  simp only [valueDeclaration, reads_bind, reads_next?] at h
  obtain ⟨_, e, hword, _, _, ⟨rfl, rfl⟩, h⟩ := h
  have hopen := isOpen_of_keyword hc hword
  split at h
  · simp only [valueGroup, reads_bind, reads_pure] at h
    obtain ⟨_, _, ⟨_, e₁, hparen, specs, e₂, hspecs, _, _, -, rfl, rfl⟩, rfl, rfl⟩ := h
    have hinside := isOpen_of_token hopen.within hparen (by decide) (by decide)
    exact List.forall_mem_map.mpr (recorded_of_specs hspec hinside hspecs.of_many)
  · simp only [reads_bind, reads_pure] at h
    obtain ⟨names, _, hnames, rfl, rfl⟩ := h
    exact List.forall_mem_singleton.mpr (hspec _ _ _ hopen hnames hd)

/-! ## Types -/

theorem not_isStray_of_typeParameters {u : Unit} (h : Reads g.typeParameters c u d) :
    ¬ IsStray c := by
  intro hstray
  simp only [typeParameters, reads_bind] at h
  obtain ⟨_, e, hopen, -⟩ := h
  exact hstray.not_reads_token (by decide) hopen

theorem eq_of_declaredType (hg : g.RefusesStray) {n : BoundName} {t : TypeSpec}
    (h : Reads (g.declaredType n) c t d) : t.name = n.text ∧ t.line = n.line ∧ ¬ IsStray c := by
  have htyped {isAlias : Bool} {c : Cursor} (h : Reads (do
      let shape ← g.type ending
      let d ← here
      return ({ name := n.text, isAlias, shape, line := n.line, endLine := d.line } :
      TypeSpec)) c t d) : t.name = n.text ∧ t.line = n.line ∧ ¬ IsStray c := by
    simp only [reads_bind, reads_here, reads_pure] at h
    obtain ⟨shape, e, htype, _, _, ⟨rfl, rfl⟩, rfl, rfl⟩ := h
    exact ⟨rfl, rfl, fun hstray => hg _ _ _ _ hstray htype⟩
  rcases h.of_orElse with h | h
  · obtain ⟨_, e, hequals, h⟩ := reads_seqRight.mp h
    obtain ⟨hname, hline, -⟩ := htyped h
    exact ⟨hname, hline, fun hstray => not_reads_equals_of_isStray hstray hequals⟩
  · exact htyped h

theorem recorded_of_typeSpec (hg : g.RefusesStray) {t : TypeSpec} (hc : IsOpen text c)
    (h : Reads g.typeSpec c t d) : Recorded text t.name t.line := by
  simp only [typeSpec, reads_bind, reads_either, reads_seqRight] at h
  obtain ⟨n, e, hname, hplain | ⟨_, e', hparameters, hplain⟩⟩ := h
  · obtain ⟨htext, hline, hstray⟩ := eq_of_declaredType hg hplain
    rw [htext, hline]
    exact recorded_of_boundName hc hname hstray
  · obtain ⟨htext, hline, -⟩ := eq_of_declaredType hg hplain
    rw [htext, hline]
    exact recorded_of_boundName hc hname (not_isStray_of_typeParameters hparameters)

theorem recorded_of_typeDeclaration (hg : g.RefusesStray) {types : Specs TypeSpec}
    (hc : Within text c) (h : Reads g.typeDeclaration c types d) :
    ∀ t ∈ types.flatten, Recorded text t.name t.line := by
  simp only [typeDeclaration, reads_bind, reads_next?] at h
  obtain ⟨_, e, hword, _, _, ⟨rfl, rfl⟩, h⟩ := h
  have hopen := isOpen_of_keyword hc hword
  split at h
  · obtain ⟨specs, hgroup, rfl⟩ := reads_map.mp h
    obtain ⟨e₁, _, hgroup, -⟩ := reads_seqLeft.mp hgroup
    obtain ⟨_, e₂, hparen, hspecs⟩ := reads_seqRight.mp hgroup
    have hinside := isOpen_of_token hopen.within hparen (by decide) (by decide)
    intro t ht
    obtain ⟨e₃, e₄, hspec, rfl | ⟨b, hleads, hend⟩⟩ := hspecs.exists_of_terminated ht
    · exact recorded_of_typeSpec hg hinside hspec
    · exact recorded_of_typeSpec hg (isOpen_of_terminator (hinside.within.leads hleads) hend) hspec
  · obtain ⟨t, hspec, rfl⟩ := reads_map.mp h
    exact List.forall_mem_singleton.mpr (recorded_of_typeSpec hg hopen hspec)

/-! ## Functions -/

theorem isOpen_of_parameters {crossing : Bool} {members : List Member} (hc : Within text c)
    (h : Reads (g.parameters crossing) c members d) : IsOpen text d := by
  simp only [parameters, reads_bind, reads_pure] at h
  obtain ⟨_, e₁, hopen, _, e₂, hgroups, _, e₃, hbefore, _, e₄, hcomma, _, e₅, hbehind, _, _,
      hclose, -, rfl⟩ := h
  have hleads :=
    (hopen.leads.trans hgroups.leads).trans (hbefore.leads.trans (hcomma.leads.trans hbehind.leads))
  exact isOpen_of_token (hc.leads hleads) hclose (by decide) (by decide)

theorem not_isStray_of_parameters {crossing : Bool} {members : List Member}
    (h : Reads (g.parameters crossing) c members d) : ¬ IsStray c := by
  intro hstray
  simp only [parameters, reads_bind] at h
  obtain ⟨_, e, hopen, -⟩ := h
  exact hstray.not_reads_token (by decide) hopen

/-- The name stands where the header ends: on the line of the keyword, or on a later one. -/
theorem recorded_of_functionHeader {depth : Nat} {name : String} {e : Cursor} (hc : Within text c)
    (he : IsOpen text e) (hname : Reads identifier e name d) (hd : ¬ IsStray d)
    (hheader : Reads (ofDepth depth).functionHeader c name d) : Recorded text name c.line := by
  have hword := isWordAt_of_identifier? (reads_identifier.mp hname)
  refine ⟨hword.ne_nil, ⟨c, hc, rfl⟩, fun _ => ?_⟩
  have hstands := standsOn_of_isWordAt he hword (hword.peek?_any hd)
  by_cases hline : e.skip.line = c.line
  · exact Or.inl (hline ▸ hstands)
  · refine Or.inr ⟨depth, c, d, hc, rfl, hheader, Nat.lt_of_le_of_ne hheader.leads.line_le
      fun heq => hline ?_⟩
    rw [heq, hword.line_eq]

theorem recorded_of_functionDeclaration {depth : Nat} {f : Function} (hc : Within text c)
    (h : Reads (ofDepth depth).functionDeclaration c f d) : Recorded text f.name f.line := by
  simp only [functionDeclaration, reads_bind, reads_start, reads_next?] at h
  obtain ⟨_, _, ⟨rfl, rfl⟩, _, e, hfunc, _, _, ⟨rfl, rfl⟩, h⟩ := h
  have hstart := hc.leads (c.leads_skip true)
  have hopen := isOpen_of_keyword hstart hfunc
  split at h
  next hreceiver =>
    simp only [methodTail, reads_bind, reads_pure] at h
    obtain ⟨receiver, e₁, hparameters, name, e₂, hname, _, e₃, hnext, _, _, -, _, _, -, _,
        _, -, rfl, -⟩ := h
    have hparen := isOpen_of_parameters hopen.within hparameters
    have hheader : Reads (ofDepth depth).functionHeader c.skip name e₂ := by
      simp only [functionHeader, reads_bind, reads_next?]
      refine ⟨_, e, hfunc, _, e, ⟨rfl, rfl⟩, ?_⟩
      rw [if_pos hreceiver]
      exact reads_seqRight.mpr ⟨receiver, e₁, hparameters, hname⟩
    exact recorded_of_functionHeader hstart hparen hname (not_isStray_of_parameters hnext) hheader
  next hreceiver =>
    simp only [functionTail, reads_bind, reads_next?] at h
    obtain ⟨name, e₁, hname, _, _, ⟨rfl, rfl⟩, h⟩ := h
    have htail : f.name = name ∧ f.line = c.skip.line ∧ ¬ IsStray e₁ := by
      split at h
      · simp only [reads_bind, reads_pure] at h
        obtain ⟨_, _, hnext, _, _, -, _, _, -, _, _, -, _, _, -, rfl, -⟩ := h
        exact ⟨rfl, rfl, not_isStray_of_typeParameters hnext⟩
      · simp only [reads_bind, reads_pure] at h
        obtain ⟨_, _, hnext, _, _, -, _, _, -, _, _, -, rfl, -⟩ := h
        exact ⟨rfl, rfl, not_isStray_of_parameters hnext⟩
    obtain ⟨rfl, hline, hstray⟩ := htail
    have hheader : Reads (ofDepth depth).functionHeader c.skip f.name e₁ := by
      simp only [functionHeader, reads_bind, reads_next?]
      refine ⟨_, e, hfunc, _, e, ⟨rfl, rfl⟩, ?_⟩
      rw [if_neg hreceiver]
      exact hname
    rw [hline]
    exact recorded_of_functionHeader hstart hopen hname hstray hheader

/-! ## Items -/

/-- The symbol is recorded with a line of the text. -/
def SymbolRecorded (text : List Char) (s : Symbol) : Prop :=
  ∃ line : Nat, s.line = line ∧ Recorded text s.name line

theorem not_isStray_of_itemEnd {mayEnd : Bool} {u : Unit} (h : Reads (itemEnd mayEnd) c u d) :
    ¬ IsStray c := by
  intro hstray
  rcases h.of_orElse with h | h
  · exact hstray.not_reads_terminator h
  · simp only [reads_bind, reads_start, reads_check] at h
    obtain ⟨_, _, ⟨rfl, rfl⟩, hend, rfl⟩ := h
    rw [hstray.skip_eq false, Bool.and_eq_true, List.isEmpty_iff] at hend
    obtain ⟨ch, hpeek, -⟩ := hstray.exists_peek?
    rw [Cursor.peek?, hend.2] at hpeek
    cases hpeek

theorem recorded_of_item {depth : Nat} {item : Item} {mayEnd : Bool} (hc : Within text c)
    (h : Reads (ofDepth depth).item c (item, mayEnd) d) (hd : ¬ IsStray d) :
    ∀ s ∈ item.symbols, SymbolRecorded text s := by
  simp only [Grammar.item, wordAhead, reads_bind, reads_look] at h
  obtain ⟨_, _, ⟨rfl, rfl⟩, h⟩ := h
  have hg := refusesStray_ofDepth depth
  have hother {p : Reader Bool} (h : Reads (do return (Item.other, ← p)) c (item, mayEnd) d) :
      ∀ s ∈ item.symbols, SymbolRecorded text s := by
    simp only [reads_bind, reads_pure] at h
    obtain ⟨_, _, -, hitem, -⟩ := h
    obtain ⟨rfl, -⟩ := Prod.mk.inj hitem
    exact List.forall_mem_nil _
  split at h
  · -- a package clause
    obtain ⟨_, e, -, h⟩ := reads_bind.mp h
    obtain ⟨hitem, -⟩ := reads_yielding.mp h
    obtain ⟨rfl, -⟩ := Prod.mk.inj hitem
    exact List.forall_mem_nil _
  · -- imports
    simp only [reads_bind, reads_pure] at h
    obtain ⟨paths, _, -, hitem, -⟩ := h
    obtain ⟨rfl, -⟩ := Prod.mk.inj hitem
    exact List.forall_mem_nil _
  · -- a function
    rcases h.of_orElse with h | h
    · simp only [reads_bind, reads_pure] at h
      obtain ⟨f, _, hfunction, hitem, -⟩ := h
      obtain ⟨rfl, -⟩ := Prod.mk.inj hitem
      have hrecorded := recorded_of_functionDeclaration hc hfunction
      exact List.forall_mem_singleton.mpr ⟨f.line, rfl, hrecorded⟩
    · exact hother h
  · -- types
    simp only [reads_bind, reads_pure] at h
    obtain ⟨types, _, htypes, hitem, -⟩ := h
    obtain ⟨rfl, -⟩ := Prod.mk.inj hitem
    have hrecorded := recorded_of_typeDeclaration hg hc htypes
    exact List.forall_mem_map.mpr fun t ht => ⟨t.line, rfl, hrecorded t ht⟩
  · -- constants
    simp only [reads_bind, reads_pure] at h
    obtain ⟨found, _, hspecs, hitem, rfl⟩ := h
    obtain ⟨rfl, -⟩ := Prod.mk.inj hitem
    have hrecorded := recorded_of_valueDeclaration (records_constantSpec hg) hc hspecs hd
    refine List.forall_mem_map.mpr fun n hn => ⟨n.line, rfl, ?_⟩
    obtain ⟨names, hnames, hn⟩ := List.mem_flatMap.mp hn
    exact hrecorded names hnames n hn
  · -- variables
    simp only [reads_bind, reads_pure] at h
    obtain ⟨found, _, hspecs, hitem, rfl⟩ := h
    obtain ⟨rfl, -⟩ := Prod.mk.inj hitem
    have hrecorded := recorded_of_valueDeclaration (records_variableSpec hg) hc hspecs hd
    refine List.forall_mem_map.mpr fun n hn => ⟨n.line, rfl, ?_⟩
    obtain ⟨names, hnames, hn⟩ := List.mem_flatMap.mp hn
    exact hrecorded names hnames n (names.names_subset_marked hn)
  · exact hother h

theorem recorded_of_wholeItem {depth : Nat} {item : Item} (hc : Within text c)
    (h : Reads (ofDepth depth).wholeItem c item d) : ∀ s ∈ item.symbols, SymbolRecorded text s := by
  simp only [wholeItem, reads_bind, reads_pure] at h
  obtain ⟨⟨found, mayEnd⟩, e, hitem, _, _, hend, rfl, rfl⟩ := h
  exact recorded_of_item hc hitem (not_isStray_of_itemEnd hend)

end Grammar

/-! ## Files -/

variable {text : List Char} {c : Cursor}

/-- In a file that breaks no rule the items follow one another, each of them at a place in
the text. -/
theorem recorded_of_itemsFrom {depth bound : Nat} (hc : Within text c)
    (h : (itemsFrom (Grammar.ofDepth depth) bound c).complete = true) :
    ∀ s ∈ (itemsFrom (Grammar.ofDepth depth) bound c).symbols, Grammar.SymbolRecorded text s := by
  induction bound generalizing c with
  | zero => cases h
  | succ bound ih =>
    have hstart := hc.leads (c.leads_skip true)
    rw [itemsFrom] at h ⊢
    simp only at h ⊢
    cases hend : c.skip.rest.isEmpty with
    | true =>
      rw [if_pos rfl]
      exact List.forall_mem_nil _
    | false =>
      rw [hend, if_neg Bool.false_ne_true] at h
      rw [if_neg Bool.false_ne_true]
      cases hways : (Grammar.ofDepth depth).wholeItem c.skip with
      | nil =>
        rw [hways] at h
        cases h
      | cons way ways =>
        rw [hways] at h
        have hread : Reads (Grammar.ofDepth depth).wholeItem c.skip way.value way.behind :=
          ⟨way, hways ▸ List.mem_cons_self, rfl, rfl⟩
        intro s hs
        simp only [SourceFile.symbols, List.flatMap_cons, List.mem_append] at hs
        rcases hs with hs | hs
        · exact Grammar.recorded_of_wholeItem hstart hread s hs
        · exact ih (hstart.leads way.leads) h s hs

/-- A byte order mark is no part of what is read, and no line of its own. -/
theorem exists_ofText (text : List Char) :
    ∃ mark body, text = mark ++ body ∧ '\n' ∉ mark ∧
      SourceFile.ofText text = itemsFrom (Grammar.forLength body.length) (body.length + 1)
        { rest := body } := by
  unfold SourceFile.ofText
  split
  next rest => exact ⟨['\uFEFF'], rest, rfl, by decide, rfl⟩
  next => exact ⟨[], text, rfl, List.not_mem_nil, rfl⟩

theorem recorded_of_mem_symbols? {content : List UInt8} {found : List Symbol} {s : Symbol}
    (h : symbols? content = some found) (hs : s ∈ found) :
    Grammar.SymbolRecorded (Utf8.decode content) s := by
  obtain ⟨hcomplete, hfound⟩ := Option.ite_none_right_eq_some.mp h
  obtain rfl := Option.some.inj hfound
  obtain ⟨mark, body, htext, hmark, hfile⟩ := exists_ofText (Utf8.decode content)
  rw [SourceFile.ofBytes, hfile] at hcomplete hs
  have hstart : Within (Utf8.decode content) { rest := body } :=
    ⟨mark, htext, by rw [List.count_eq_zero_of_not_mem hmark]⟩
  exact recorded_of_itemsFrom hstart hcomplete s hs

end CodeAtlas.Go
