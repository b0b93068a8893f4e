import Mathlib.Data.List.Basic
import CodeAtlas.Outline.Registry
import CodeAtlas.Proofs.Go.TopLevel

/-! # What is recorded of a file

A file is read item by item up to its end, or up to a place where no item can be read; then it is
broken. What is recorded of a file is what its declarations declare, in the order in which they
stand there, and nothing else but the commas of constants that are declared together.
-/
namespace CodeAtlas.Go
open Text Reader

variable {g : Grammar} {c d e : Cursor}

/-! ## Order -/

/-- Entries that follow one another between two lines. -/
structure InOrder (low high : Nat) (entries : List Declared) : Prop where
  le : low ≤ high
  within : ∀ x ∈ entries, (low : Int) ≤ x.line ∧ x.line ≤ x.endLine ∧ x.endLine ≤ high
  pairwise : entries.Pairwise fun x y => x.endLine ≤ y.line

namespace InOrder
variable {low mid high : Nat} {xs ys : List Declared} {x : Declared}

theorem nil (h : low ≤ high) : InOrder low high [] := ⟨h, by simp, .nil⟩

theorem singleton (hlow : (low : Int) ≤ x.line) (hline : x.line ≤ x.endLine)
    (hhigh : x.endLine ≤ high) : InOrder low high [x] where
  le := by omega
  within := List.forall_mem_singleton.mpr ⟨hlow, hline, hhigh⟩
  pairwise := List.pairwise_singleton _ _

theorem append (h : InOrder low mid xs) (h' : InOrder mid high ys) :
    InOrder low high (xs ++ ys) where
  le := Nat.le_trans h.le h'.le
  within := by
    have hlow := h.le
    have hhigh := h'.le
    intro x hx
    rcases List.mem_append.mp hx with hx | hx
    · have := h.within x hx
      omega
    · have := h'.within x hx
      omega
  pairwise := by
    refine List.pairwise_append.mpr ⟨h.pairwise, h'.pairwise, fun x hx y hy => ?_⟩
    exact Int.le_trans (h.within x hx).2.2 (h'.within y hy).1

theorem behind (hlow : low ≤ mid) (h : InOrder mid high xs) : InOrder low high xs :=
  (nil hlow).append h

theorem before (h : InOrder low mid xs) (hhigh : mid ≤ high) : InOrder low high xs := by
  simpa using h.append (nil hhigh)

theorem sublist (h : InOrder low high ys) (hsub : xs.Sublist ys) : InOrder low high xs :=
  ⟨h.le, fun x hx => h.within x (hsub.mem hx), h.pairwise.sublist hsub⟩

end InOrder

theorem Name.StandsAt.inOrder {n : Name} (kind : SymbolKind) (h : n.StandsAt c) :
    InOrder c.line n.behind.line [n.declared kind] := by
  have hstart := (c.leads_skip true).line_le
  rw [← h.start_eq] at hstart
  have hend := (Cursor.leads_identifier? h.identifier).line_le
  exact .singleton (Int.ofNat_le.mpr hstart) (Int.ofNat_le.mpr hend) (Int.le_refl _)

theorem NameList.StandsAt.inOrder {names : NameList} (kind : SymbolKind) (h : names.StandsAt c d) :
    InOrder c.line d.line (names.marked kind) := by
  induction h with
  | last h => exact h.inOrder kind
  | @comma n c d e rest crossing h hcomma _ ih =>
    have hgap := (n.behind.leads_skip crossing).line_le
    have hsign := (Cursor.leads_sign? hcomma).line_le
    have hplace : InOrder n.behind.line d.line
        [⟨",", kind, (n.behind.skip crossing).line, (n.behind.skip crossing).line⟩] :=
      .singleton (Int.ofNat_le.mpr hgap) (Int.le_refl _) (Int.ofNat_le.mpr hsign)
    exact (h.inOrder kind).append (hplace.append ih)

theorem NameList.declared_sublist_marked (kind : SymbolKind) (names : NameList) :
    (names.declared kind).Sublist (names.marked kind) := by
  induction names with
  | last n => exact .refl _
  | comma n place rest ih => exact (ih.cons _).cons_cons _

section Groups
variable {α : Type} {stands : Cursor → α → Cursor → Prop} {view : α → List Declared} {as : List α}

theorem Series.inOrder (h : Series stands c as d)
    (hstands : ∀ c a d, stands c a d → InOrder c.line d.line (view a)) :
    InOrder c.line d.line (as.flatMap view) := by
  induction h with
  | nil c => exact .nil (Nat.le_refl _)
  | last h => simpa using hstands _ _ _ h
  | cons h hend _ ih =>
    rw [List.flatMap_cons]
    exact (hstands _ _ _ h).append (ih.behind hend.leads.line_le)

theorem Grouped.inOrder (h : Grouped stands c as d)
    (hstands : ∀ c a d, stands c a d → InOrder c.line d.line (view a)) :
    InOrder c.line d.line (as.flatMap view) := by
  cases h with
  | single h => simpa using hstands _ _ _ h
  | group hopen hseries hclose =>
    exact ((hseries.inOrder hstands).behind hopen.leads.line_le).before hclose.leads.line_le

/-- Each thing in a group stands somewhere. -/
theorem Series.exists_stands {a : α} (h : Series stands c as d) (ha : a ∈ as) :
    ∃ c d, stands c a d := by
  induction h with
  | nil => cases ha
  | last h => exact ⟨_, _, List.mem_singleton.mp ha ▸ h⟩
  | cons h _ _ ih =>
    rcases List.mem_cons.mp ha with rfl | ha
    · exact ⟨_, _, h⟩
    · exact ih ha

theorem Grouped.exists_stands {a : α} (h : Grouped stands c as d) (ha : a ∈ as) :
    ∃ c d, stands c a d := by
  cases h with
  | single h => exact ⟨_, _, List.mem_singleton.mp ha ▸ h⟩
  | group _ h _ => exact h.exists_stands ha

end Groups

theorem ConstantsStand.inOrder {names : NameList} (h : ConstantsStand g c names d) :
    InOrder c.line d.line (names.marked .constant) := by
  obtain ⟨e, given, hnames, hgiven⟩ := h
  exact (hnames.inOrder .constant).before hgiven.leads.line_le

theorem VariablesStand.inOrder {names : NameList} (h : VariablesStand g c names d) :
    InOrder c.line d.line (names.declared .variable) := by
  obtain ⟨e, given, hnames, hgiven⟩ := h
  exact ((hnames.inOrder .variable).sublist (names.declared_sublist_marked .variable)).before
    hgiven.leads.line_le

theorem leads_of_eq_or_reads {α : Type} {p : Reader α} {a : α} (h : c = d ∨ Reads p c a d) :
    c.Leads d := by
  rcases h with rfl | h
  · exact .refl c
  · exact h.leads

theorem TypeStands.inOrder {t : TypePart} (h : TypeStands g c t d) :
    InOrder c.line d.line [t.declared] := by
  obtain ⟨hname, rfl, e, e', hparameters, hequals, htype⟩ := h
  have hsign := leads_of_eq_or_reads (hequals.symm.imp And.right And.right)
  have hrest := (((leads_of_eq_or_reads hparameters).trans hsign).trans htype.leads).line_le
  obtain ⟨hlow, hline, -⟩ := List.forall_mem_singleton.mp (hname.inOrder .type).within
  exact .singleton hlow (Int.le_trans hline (Int.ofNat_le.mpr hrest)) (Int.le_refl _)

theorem Name.StandsAt.leads {n : Name} (h : n.StandsAt c) : c.Leads n.behind := by
  have hstart := c.leads_skip true
  rw [← h.start_eq] at hstart
  exact hstart.trans (Cursor.leads_identifier? h.identifier)

theorem TailStands.leads (h : TailStands g c d) : c.Leads d := by
  obtain ⟨parameters, result, e, e', hparameters, hresult, hbody⟩ := h
  exact (hparameters.leads.trans hresult.leads).trans hbody.leads

theorem FunctionStands.inOrder {f : FunctionPart} (h : FunctionStands g c f d) :
    InOrder c.line d.line [f.declared] := by
  have hstart := (c.leads_skip true).line_le
  have hpart : f.start = c.skip ∧ f.behind = d ∧ c.skip.Leads d := by
    cases h with
    | function hkeyword hname hparameters htail =>
      have hword := Cursor.leads_keyword? (reads_keyword.mp hkeyword)
      exact ⟨rfl, rfl, ((hword.trans hname.leads).trans (leads_of_eq_or_reads hparameters)).trans
        htail.leads⟩
    | method hkeyword hreceiver hname htail =>
      have hword := Cursor.leads_keyword? (reads_keyword.mp hkeyword)
      exact ⟨rfl, rfl, ((hword.trans hreceiver.leads).trans hname.leads).trans htail.leads⟩
  obtain ⟨hfrom, rfl, hleads⟩ := hpart
  refine .singleton ?_ ?_ (Int.le_refl _)
  · rw [FunctionPart.declared, hfrom]
    exact Int.ofNat_le.mpr hstart
  · rw [FunctionPart.declared, hfrom]
    exact Int.ofNat_le.mpr hleads.line_le

theorem OtherStands.leads (h : OtherStands g c d) : c.Leads d := by
  cases h with
  | package hkeyword hname => exact hkeyword.leads.trans hname.leads
  | imports h => exact h.leads
  | statement h => exact h.leads

/-- What is recorded of a declaration lies between the lines where it begins and ends. -/
theorem Declaration.StandsAt.inOrder {decl : Declaration} (h : decl.StandsAt g c d) :
    InOrder c.line d.line decl.recorded := by
  cases h with
  | function h => exact h.inOrder
  | types hkeyword hspecs =>
    have hentries : InOrder _ d.line (List.flatMap (fun t : TypePart => [t.declared]) _) :=
      hspecs.inOrder fun _ _ _ => TypeStands.inOrder
    rw [← List.map_eq_flatMap] at hentries
    exact hentries.behind hkeyword.leads.line_le
  | constants hkeyword hspecs =>
    exact (hspecs.inOrder fun _ _ _ => ConstantsStand.inOrder).behind hkeyword.leads.line_le
  | vars hkeyword hspecs =>
    exact (hspecs.inOrder fun _ _ _ => VariablesStand.inOrder).behind hkeyword.leads.line_le
  | other _ _ h => exact .nil h.leads.line_le

/-! ## Commas -/

/-- A specification declares several constants. -/
def Declaration.JoinsConstants : Declaration → Prop
  | .constants specs => ∃ names ∈ specs, 1 < names.names.length
  | _ => False

theorem Name.StandsAt.text_ne {n : Name} (h : n.StandsAt c) : n.text ≠ "," := by
  intro htext
  have hhead := (isWordAt_of_identifier? h.identifier).head
  rw [htext] at hhead
  exact absurd hhead (by decide)

theorem NameList.StandsAt.text_ne {names : NameList} (h : names.StandsAt c d) :
    ∀ n ∈ names.names, n.text ≠ "," := by
  induction h with
  | last h => exact List.forall_mem_singleton.mpr h.text_ne
  | comma _ h _ _ ih => exact List.forall_mem_cons.mpr ⟨h.text_ne, ih⟩

theorem NameList.filter_marked {names : NameList} (kind : SymbolKind)
    (h : ∀ n ∈ names.names, n.text ≠ ",") :
    (names.marked kind).filter (·.name != ",") = names.declared kind := by
  induction names with
  | last n =>
    have hn := h n (List.mem_singleton_self n)
    simp [marked, declared, names, Name.declared, hn]
  | comma n place rest ih =>
    obtain ⟨hn, hrest⟩ := List.forall_mem_cons.mp h
    have hrest := ih hrest
    rw [declared] at hrest ⊢
    simp [marked, names, Name.declared, hn, hrest]

/-- Where there are several names, there is a comma. -/
theorem NameList.comma_mem_marked {names : NameList} (kind : SymbolKind)
    (h : 1 < names.names.length) : ∃ x ∈ names.marked kind, x.name = "," := by
  cases names with
  | last n => simp [NameList.names] at h
  | comma n place rest => exact ⟨_, List.mem_cons_of_mem _ List.mem_cons_self, rfl⟩

theorem NameList.marked_eq_declared {names : NameList} (kind : SymbolKind)
    (h : ¬ 1 < names.names.length) : names.marked kind = names.declared kind := by
  cases names with
  | last n => rfl
  | comma n place rest =>
    cases rest with
    | last m => exact absurd (Nat.lt_succ_self 1) h
    | comma m place rest => exact absurd (Nat.succ_lt_succ (Nat.succ_pos _)) h

namespace Declaration
variable {decl : Declaration}

/-- No declared name is a comma. -/
theorem StandsAt.name_ne (h : decl.StandsAt g c d) : ∀ x ∈ decl.declared, x.name ≠ "," := by
  cases h with
  | function h =>
    refine List.forall_mem_singleton.mpr ?_
    cases h with
    | function _ hname => exact hname.text_ne
    | method _ _ hname => exact hname.text_ne
  | types _ hspecs =>
    refine List.forall_mem_map.mpr fun t ht => ?_
    obtain ⟨_, _, hstands⟩ := hspecs.exists_stands ht
    exact hstands.name.text_ne
  | constants _ hspecs =>
    refine List.forall_mem_flatMap.mpr fun names hnames => List.forall_mem_map.mpr ?_
    obtain ⟨_, _, _, _, hstands, -⟩ := hspecs.exists_stands hnames
    exact hstands.text_ne
  | vars _ hspecs =>
    refine List.forall_mem_flatMap.mpr fun names hnames => List.forall_mem_map.mpr ?_
    obtain ⟨_, _, _, _, hstands, -⟩ := hspecs.exists_stands hnames
    exact hstands.text_ne
  | other => exact List.forall_mem_nil _

/-- Without the commas, what is recorded is what is declared. -/
theorem StandsAt.filter_recorded (h : decl.StandsAt g c d) :
    decl.recorded.filter (·.name != ",") = decl.declared := by
  have hnames := h.name_ne
  cases h with
  | constants _ hspecs =>
    rw [recorded, declared, List.filter_flatMap]
    refine List.flatMap_congr fun names hnames => NameList.filter_marked _ ?_
    obtain ⟨_, _, _, _, hstands, -⟩ := hspecs.exists_stands hnames
    exact hstands.text_ne
  | function => exact List.filter_eq_self.mpr fun x hx => bne_iff_ne.mpr (hnames x hx)
  | types => exact List.filter_eq_self.mpr fun x hx => bne_iff_ne.mpr (hnames x hx)
  | vars => exact List.filter_eq_self.mpr fun x hx => bne_iff_ne.mpr (hnames x hx)
  | other => rfl

theorem recorded_eq_declared (h : ¬ decl.JoinsConstants) : decl.recorded = decl.declared := by
  cases decl with
  | constants specs =>
    refine List.flatMap_congr fun names hnames => NameList.marked_eq_declared _ fun hlength => ?_
    exact h ⟨names, hnames, hlength⟩
  | function => rfl
  | types => rfl
  | vars => rfl
  | other => rfl

theorem JoinsConstants.comma_mem (h : decl.JoinsConstants) : ∃ x ∈ decl.recorded, x.name = "," := by
  cases decl with
  | constants specs =>
    obtain ⟨names, hnames, hlength⟩ := h
    obtain ⟨x, hx, hname⟩ := names.comma_mem_marked .constant hlength
    exact ⟨x, List.mem_flatMap.mpr ⟨names, hnames, hx⟩, hname⟩
  | function => cases h
  | types => cases h
  | vars => cases h
  | other => cases h

end Declaration

/-! ## Files -/

/-- Declarations that are read one after the other, each in the first way in which it can be read
together with what ends it. The second place is where the next one would begin. -/
inductive Unfolds (g : Grammar) : Cursor → List Declaration → Cursor → Prop
  | done (c : Cursor) : Unfolds g c [] c.skip
  | next {c d e : Cursor} {way : Way Item c.skip} {mayEnd : Bool} {decl : Declaration}
      {decls : List Declaration}
    (hmore : c.skip.rest ≠ []) (hway : (g.wholeItem c.skip).head? = some way)
    (hstands : decl.StandsAt g c.skip d) (hend : Reads (Grammar.itemEnd mayEnd) d () way.behind)
    (hrest : Unfolds g way.behind decls e) : Unfolds g c (decl :: decls) e

/-- Nothing can be read at the place, but the text goes on. -/
structure IsStuck (g : Grammar) (c : Cursor) : Prop where
  rest_ne : c.rest ≠ []
  no_way : g.wholeItem c = []

namespace Unfolds
variable {decls others : List Declaration} {e' : Cursor}

theorem inOrder (h : Unfolds g c decls e) :
    InOrder c.line e.line (decls.flatMap Declaration.recorded) := by
  induction h with
  | done c => exact .nil (c.leads_skip true).line_le
  | @next c _ _ _ _ _ _ _ _ hstands hend _ ih =>
    rw [List.flatMap_cons]
    exact (hstands.inOrder.behind (c.leads_skip true).line_le).append (ih.behind hend.leads.line_le)

theorem exists_stands {decl : Declaration} (h : Unfolds g c decls e) (hdecl : decl ∈ decls) :
    ∃ c d, decl.StandsAt g c d := by
  induction h with
  | done => cases hdecl
  | next _ _ hstands _ _ ih =>
    rcases List.mem_cons.mp hdecl with rfl | hdecl
    · exact ⟨_, _, hstands⟩
    · exact ih hdecl

/-- A file that is read to its end nowhere gets stuck. -/
theorem not_isStuck (h : Unfolds g c decls e) (hend : e.rest = []) (h' : Unfolds g c others e') :
    ¬ IsStuck g e' := by
  intro hstuck
  induction h generalizing others with
  | done c =>
    cases h' with
    | done => exact hstuck.rest_ne hend
    | next hmore => exact hmore hend
  | next hmore hway _ _ _ ih =>
    cases h' with
    | done =>
      rw [hstuck.no_way] at hway
      cases hway
    | next _ hway' _ _ hrest =>
      obtain rfl := Option.some.inj (hway.symm.trans hway')
      exact ih hend hrest

/-- Without the commas, what is recorded of a file is what it declares. -/
theorem filter_recorded (h : Unfolds g c decls e) :
    (decls.flatMap Declaration.recorded).filter (·.name != ",") =
      decls.flatMap Declaration.declared := by
  rw [List.filter_flatMap]
  refine List.flatMap_congr fun decl hdecl => ?_
  obtain ⟨_, _, hstands⟩ := h.exists_stands hdecl
  exact hstands.filter_recorded

theorem recorded_eq_declared_iff (h : Unfolds g c decls e) :
    decls.flatMap Declaration.recorded = decls.flatMap Declaration.declared ↔
      ∀ decl ∈ decls, ¬ decl.JoinsConstants := by
  constructor
  · intro heq decl hdecl hjoins
    obtain ⟨x, hx, hname⟩ := hjoins.comma_mem
    have hdeclared : x ∈ decls.flatMap Declaration.declared :=
      heq ▸ List.mem_flatMap.mpr ⟨decl, hdecl, hx⟩
    obtain ⟨source, hsource, hx⟩ := List.mem_flatMap.mp hdeclared
    obtain ⟨_, _, hstands⟩ := h.exists_stands hsource
    exact hstands.name_ne x hx hname
  · intro hnone
    exact List.flatMap_congr fun decl hdecl => Declaration.recorded_eq_declared (hnone decl hdecl)

end Unfolds

theorem Cursor.Leads.length_le (h : c.Leads d) : d.rest.length ≤ c.rest.length := by
  obtain ⟨read, h⟩ := h
  rw [h.rest_eq, List.length_append]
  exact Nat.le_add_left _ _

theorem length_lt_of_token {s : String} {crossing : Bool} {u : Unit} (hs : s.toList ≠ [])
    (h : Reads (token s crossing) c u d) : d.rest.length < c.rest.length := by
  refine Nat.lt_of_lt_of_le ?_ (c.leads_skip crossing).length_le
  rw [(spans_of_sign? (reads_token.mp h)).rest_eq, List.length_append]
  exact Nat.lt_add_of_pos_left (List.length_pos_iff.mpr hs)

/-- What ends an item is read off, or else the text is at its end. -/
theorem length_lt_of_itemEnd {mayEnd : Bool} (h : Reads (Grammar.itemEnd mayEnd) c () d) :
    d.rest.length < c.rest.length ∨ d.rest = [] := by
  rcases h.of_orElse with h | h
  · obtain ⟨s, hs, h⟩ := exists_token_of_terminator h
    exact .inl (length_lt_of_token ((by decide : ∀ s ∈ terminators, s.toList ≠ []) s hs) h)
  · simp only [reads_bind, reads_start, reads_check] at h
    obtain ⟨_, _, ⟨rfl, rfl⟩, hend, rfl⟩ := h
    exact .inr (List.isEmpty_iff.mp (Bool.and_eq_true_iff.mp hend).2)

/-- The items of a text are its declarations, up to its end or up to where nothing can be read. -/
theorem exists_unfolds {bound : Nat} (hbound : c.rest.length < bound) :
    ∃ decls e, Unfolds g c decls e ∧
      (IsStuck g e ∧ (itemsFrom g bound c).complete = false ∨
        e.rest = [] ∧ (itemsFrom g bound c).complete = true ∧
          (itemsFrom g bound c).symbols.map Declared.ofSymbol =
            decls.flatMap Declaration.recorded) := by
  induction bound generalizing c with
  | zero => exact absurd hbound (Nat.not_lt_zero _)
  | succ bound ih =>
    rw [itemsFrom]
    simp only
    cases hend : c.skip.rest.isEmpty with
    | true => exact ⟨[], c.skip, .done c, .inr ⟨List.isEmpty_iff.mp hend, rfl, rfl⟩⟩
    | false =>
      have hmore : c.skip.rest ≠ [] := fun hnil => by simp [hnil] at hend
      rw [if_neg Bool.false_ne_true]
      cases hways : g.wholeItem c.skip with
      | nil => exact ⟨[], c.skip, .done c, .inl ⟨⟨hmore, hways⟩, rfl⟩⟩
      | cons way ways =>
        have hread : Reads g.wholeItem c.skip way.value way.behind :=
          ⟨way, hways ▸ List.mem_cons_self, rfl, rfl⟩
        simp only [Grammar.wholeItem, reads_bind, reads_pure] at hread
        obtain ⟨⟨item, mayEnd⟩, d, hitem, _, _, hbehind, hvalue, rfl⟩ := hread
        obtain ⟨decl, hstands, hrecorded⟩ := exists_of_item hitem
        -- each item takes a part of the text, so that the bound is not reached
        have hshorter : way.behind.rest.length < bound := by
          have hgap := (c.leads_skip true).length_le
          have hpos := List.length_pos_iff.mpr hmore
          have hlength := hitem.leads.length_le
          rcases length_lt_of_itemEnd hbehind with hlt | hnil
          · omega
          · rw [hnil, List.length_nil]
            omega
        obtain ⟨decls, e, hunfolds, hfile⟩ := ih hshorter
        refine ⟨decl :: decls, e, .next hmore (hways ▸ rfl) hstands hbehind hunfolds,
          hfile.imp_right ?_⟩
        rintro ⟨hnil, hcomplete, hsymbols⟩
        refine ⟨hnil, hcomplete, ?_⟩
        obtain rfl : item = way.value := hvalue
        rw [List.flatMap_cons, ← hrecorded, ← hsymbols, ← List.map_append]
        rfl

/-- A text without the byte order mark in front of it. -/
def withoutMark : List Char → List Char
  | '\uFEFF' :: rest => rest
  | text => text

theorem ofText_eq (text : List Char) :
    SourceFile.ofText text = itemsFrom (Grammar.forLength (withoutMark text).length)
      ((withoutMark text).length + 1) { rest := withoutMark text } := by
  unfold SourceFile.ofText
  split
  next rest => simp only [withoutMark]
  next hmark =>
    have htext : withoutMark text = text := by
      rw [withoutMark]
      exact hmark
    rw [htext]

/-- The text is made of the declarations. -/
def IsDocument (text : List Char) (decls : List Declaration) : Prop :=
  ∃ e, Unfolds (Grammar.forLength (withoutMark text).length) { rest := withoutMark text } decls e ∧
    e.rest = []

/-- Behind some declarations the text goes on with something that cannot be read. -/
def IsBroken (text : List Char) : Prop :=
  let g := Grammar.forLength (withoutMark text).length
  ∃ decls e, Unfolds g { rest := withoutMark text } decls e ∧ IsStuck g e

/-- The symbols are those of the declarations: each declared name once and in order, and between
constants that are declared together the commas. -/
structure Tells (found : List Symbol) (decls : List Declaration) : Prop where
  recorded : found.map Declared.ofSymbol = decls.flatMap Declaration.recorded
  declared :
    (found.filter (·.name != ",")).map Declared.ofSymbol = decls.flatMap Declaration.declared
  exactly_iff : found.map Declared.ofSymbol = decls.flatMap Declaration.declared ↔
    ∀ decl ∈ decls, ¬ decl.JoinsConstants
  line_le : ∀ s ∈ found, s.line ≤ s.endLine
  inOrder : found.Pairwise fun s t => s.endLine ≤ t.line

theorem tells_of_unfolds {found : List Symbol} {decls : List Declaration} (h : Unfolds g c decls e)
    (hfound : found.map Declared.ofSymbol = decls.flatMap Declaration.recorded) :
    Tells found decls where
  recorded := hfound
  declared := by
    rw [← h.filter_recorded, ← hfound, List.filter_map]
    rfl
  exactly_iff := by rw [hfound, h.recorded_eq_declared_iff]
  line_le := by
    have hwithin := h.inOrder.within
    rw [← hfound] at hwithin
    exact fun s hs => (hwithin _ (List.mem_map_of_mem hs)).2.1
  inOrder := by
    have hpairwise := h.inOrder.pairwise
    rw [← hfound] at hpairwise
    exact List.pairwise_map.mp hpairwise

/-- A file that is broken has no symbols. Any other file is made of declarations, and its symbols
tell them. -/
theorem symbols_tell_declarations (path : String) (content : List UInt8)
    (hpath : Path.suffix path = ".go") :
    (IsBroken (Utf8.decode content) ∧
      Outline.Registry.builtin.symbols path content = .error ⟨path⟩) ∨
      (¬ IsBroken (Utf8.decode content) ∧
        ∃ found decls, Outline.Registry.builtin.symbols path content = .ok found ∧
          IsDocument (Utf8.decode content) decls ∧ Tells found decls) := by
  have hgo : Outline.Registry.builtin.symbols path content =
      Outline.Extractor.symbols .go path content := by
    rw [Outline.Registry.symbols, hpath]
    rfl
  rw [hgo, Outline.Extractor.symbols, symbols?, SourceFile.ofBytes, ofText_eq]
  obtain ⟨decls, e, hunfolds, ⟨hstuck, hcomplete⟩ | ⟨hend, hcomplete, hsymbols⟩⟩ :=
    exists_unfolds (g := Grammar.forLength (withoutMark (Utf8.decode content)).length)
      (c := { rest := withoutMark (Utf8.decode content) }) (Nat.lt_succ_self _)
  · exact .inl ⟨⟨decls, e, hunfolds, hstuck⟩,
      by simp only [hcomplete, Bool.false_eq_true, if_false]⟩
  · refine .inr ⟨?_, _, decls, ?_, ⟨e, hunfolds, hend⟩, tells_of_unfolds hunfolds hsymbols⟩
    · rintro ⟨others, e', hothers, hstuck⟩
      exact hunfolds.not_isStuck hend hothers hstuck
    · simp only [hcomplete, if_true]

def groupedText : List UInt8 :=
  Utf8.encode ("package p\n\nconst (\n\ta, b = iota, 2\n)\n\nvar x, y int\n\n" ++
    "type (\n\tT struct\x7b\x7d\n\tU = T\n)\n\nfunc (t T) F() \x7b\n\tvar z int\n\x7d\n").toList

/-- Groups and methods are told, but nothing inside of a body. -/
theorem symbols_tell_declarations_grouped :
    Path.suffix "a.go" = ".go" ∧ ¬ IsBroken (Utf8.decode groupedText) ∧
      ∃ decls, IsDocument (Utf8.decode groupedText) decls ∧ decls.flatMap Declaration.declared =
        [⟨"a", .constant, 4, 4⟩, ⟨"b", .constant, 4, 4⟩, ⟨"x", .variable, 7, 7⟩,
          ⟨"y", .variable, 7, 7⟩, ⟨"T", .struct, 10, 10⟩, ⟨"U", .type, 11, 11⟩,
          ⟨"F", .method, 14, 16⟩] := by
  have hpath : Path.suffix "a.go" = ".go" := by decide +kernel
  have hsymbols : (Outline.Registry.builtin.symbols "a.go" groupedText).toOption.map
      (fun found => (found.filter (·.name != ",")).map Declared.ofSymbol) =
        some [⟨"a", .constant, 4, 4⟩, ⟨"b", .constant, 4, 4⟩, ⟨"x", .variable, 7, 7⟩,
          ⟨"y", .variable, 7, 7⟩, ⟨"T", .struct, 10, 10⟩, ⟨"U", .type, 11, 11⟩,
          ⟨"F", .method, 14, 16⟩] := by
    decide +kernel
  rcases symbols_tell_declarations "a.go" groupedText hpath with
    ⟨-, herror⟩ | ⟨hwhole, found, decls, hok, hdocument, htells⟩
  · rw [herror] at hsymbols
    cases hsymbols
  · rw [hok] at hsymbols
    exact ⟨hpath, hwhole, decls, hdocument, htells.declared.symm.trans (Option.some.inj hsymbols)⟩

/-- Of two constants that are declared together the comma is told too, though no name is a comma. -/
theorem symbols_tell_comma :
    (Outline.Registry.builtin.symbols "a.go"
      (Utf8.encode "package p\n\nconst a, b = 1, 2\n".toList)).toOption.map
        (fun found => found.map Declared.ofSymbol) =
      some [⟨"a", .constant, 3, 3⟩, ⟨",", .constant, 3, 3⟩, ⟨"b", .constant, 3, 3⟩] ∧
    ∀ (n : Name) (c : Cursor), n.StandsAt c → n.text ≠ "," :=
  ⟨by decide +kernel, fun _ _ => Name.StandsAt.text_ne⟩

end CodeAtlas.Go
