import CodeAtlas.Proofs.Outline.Braced.Literal
import CodeAtlas.Proofs.Outline.Braced.Members

/-! # The structure of an outline

Whatever the text, balanced or not: a line has one symbol at most, a symbol lies within the file,
methods are the symbols that have a parent, and the parent is the class declared last. A line that
has a symbol has code on it, outside of block comments, and the code is no annotation.
-/
namespace CodeAtlas.Outline.Braced
open Text

/-! ## Lines without code -/

/-- A line that holds nothing but block comments and white space. `inComment` says whether a comment
is open in front of it. -/
inductive IsHidden : (inComment : Bool) → List Char → Prop
  | nil (inComment : Bool) : IsHidden inComment []
  | blank {c : Char} {rest : List Char} (hc : isBlank c = true) (h : IsHidden false rest) :
      IsHidden false (c :: rest)
  | opening {rest : List Char} (h : IsHidden true rest) : IsHidden false ('/' :: '*' :: rest)
  | inside {c : Char} {rest : List Char} (hc : c = '*' → rest.head? ≠ some '/')
      (h : IsHidden true rest) :
    IsHidden true (c :: rest)
  | closing {rest : List Char} (h : IsHidden false rest) : IsHidden true ('*' :: '/' :: rest)

namespace IsHidden
variable {inComment : Bool} {c : Char} {line gap : List Char}

theorem of_blank_cons (h : IsHidden inComment (c :: line)) (hc : isBlank c = true) :
    IsHidden inComment line := by
  cases h with
  | blank _ h => exact h
  | opening => exact absurd hc (by decide)
  | inside _ h => exact h
  | closing => exact absurd hc (by decide)

theorem of_gap_append (h : IsHidden inComment (gap ++ line)) (hgap : ∀ c ∈ gap, isBlank c = true) :
    IsHidden inComment line := by
  induction gap with
  | nil => exact h
  | cons c gap ih =>
    obtain ⟨hc, hgap⟩ := List.forall_mem_cons.mp hgap
    exact ih (h.of_blank_cons hc) hgap

/-- The mark of a comment is not cut by taking white space away behind it. -/
theorem exists_cons_of_append_gap {rest : List Char} (hgap : ∀ c ∈ gap, isBlank c = true)
    (hc : isBlank c = false) (h : line ++ gap = c :: rest) :
    ∃ behind, line = c :: behind ∧ behind ++ gap = rest := by
  cases line with
  | nil =>
    have hmem : c ∈ gap := by
      rw [← List.nil_append gap, h]
      exact List.mem_cons_self
    rw [hgap c hmem] at hc
    cases hc
  | cons d line =>
    obtain ⟨rfl, rfl⟩ := List.cons.inj h
    exact ⟨line, rfl, rfl⟩

theorem of_append_gap (h : IsHidden inComment (line ++ gap)) (hgap : ∀ c ∈ gap, isBlank c = true) :
    IsHidden inComment line := by
  generalize htext : line ++ gap = text at h
  induction h generalizing line with
  | nil inComment =>
    rw [(List.append_eq_nil_iff.mp htext).1]
    exact nil inComment
  | blank hc h ih =>
    cases line with
    | nil => exact nil false
    | cons d line =>
      obtain ⟨rfl, hrest⟩ := List.cons.inj htext
      exact blank hc (ih hrest)
  | opening h ih =>
    obtain ⟨behind, rfl, hbehind⟩ := exists_cons_of_append_gap hgap (by decide) htext
    obtain ⟨rest, rfl, hrest⟩ := exists_cons_of_append_gap hgap (by decide) hbehind
    exact opening (ih hrest)
  | inside hc h ih =>
    cases line with
    | nil => exact nil true
    | cons d line =>
      obtain ⟨rfl, hrest⟩ := List.cons.inj htext
      refine inside (fun hd hhead => hc hd ?_) (ih hrest)
      change line ++ gap = _ at hrest
      rw [← hrest, List.head?_append, hhead, Option.some_or]
  | closing h ih =>
    obtain ⟨behind, rfl, hbehind⟩ := exists_cons_of_append_gap hgap (by decide) htext
    obtain ⟨rest, rfl, hrest⟩ := exists_cons_of_append_gap hgap (by decide) hbehind
    exact closing (ih hrest)

theorem trim (h : IsHidden inComment line) : IsHidden inComment (trim line) := by
  obtain ⟨before, after, hbefore, hafter, hline⟩ := exists_trim line
  rw [hline] at h
  exact (h.of_gap_append hbefore).of_append_gap hafter

/-- Nothing but white space is left when the comments are taken out. -/
theorem isBlank_of_mem_remains (h : IsHidden inComment line) :
    ∀ c ∈ (remains (startZone inComment) line).1, isBlank c = true := by
  induction h with
  | nil inComment => cases inComment <;> simp [remains, emitted, startZone, Zone.held]
  | @blank c rest hc h ih =>
    have hescape : c ≠ '\\' := ne_of_isBlank hc (by decide)
    have hslash : c ≠ '/' := ne_of_isBlank hc (by decide)
    have hquote : nextQuote none c = none := by simp [nextQuote, isQuote_of_isBlank hc]
    rw [startZone, if_neg Bool.false_ne_true, remains_code hescape fun hc =>
      absurd hc hslash, hquote]
    exact List.forall_mem_cons.mpr ⟨hc, ih⟩
  | opening h ih => exact ih
  | inside hc h ih =>
    rw [startZone, if_pos rfl, remains_comment hc]
    exact ih
  | closing h ih =>
    have hspace : isBlank ' ' = true := by decide
    exact List.forall_mem_cons.mpr ⟨hspace, ih⟩

theorem codeOf_eq_nil (h : IsHidden inComment line) : (codeOf inComment line).1 = [] := by
  have hstart : trimStart (remains (startZone inComment) (Text.trim line)).1 = [] :=
    List.dropWhile_eq_nil_iff.mpr h.trim.isBlank_of_mem_remains
  rw [codeOf, strip_eq_remains]
  change trimEnd (trimStart (remains _ (Text.trim line)).1) = []
  rw [hstart]
  rfl

end IsHidden

/-- Whether a block comment is open in front of the line with index `k`, going by the text alone. -/
def opensHidden (file : List (List Char)) (k : Nat) : Bool :=
  (zoneBehind .code (['\n'].intercalate (file.take k))).isBlock

theorem inComment_eq_opensHidden {file : List (List Char)} (h : ∀ raw ∈ file, '\n' ∉ raw)
    (k : Nat) : (stateBehind (file.take k)).inComment = opensHidden file k :=
  congrArg Prod.snd (stateFrom_outcome {} 1 fun raw hraw => h raw (List.mem_of_mem_take hraw))

/-! ## What a symbol says of its line -/

section Lines
variable {st : State} {text : List Char} {line : Nat} {owner : String} {s : Symbol}

theorem parent_of_topLevel? (h : topLevel? text line = some s) : s.parent = "" := by
  obtain ⟨⟨kind, name?, cut⟩, -, h⟩ := List.exists_of_findSome?_eq_some h
  obtain ⟨name, -, rfl⟩ := Option.map_eq_some_iff.mp h
  rfl

theorem name_of_member? (h : member? text line owner = some s) : s.name ∉ keywords := by
  unfold member? at h
  split at h
  · obtain rfl := Option.some.inj h
    have hname : "constructor" ∉ keywords := by decide
    exact hname
  · simp only [Option.bind_eq_bind, Option.bind_eq_some_iff, Option.ite_none_left_eq_some,
      Option.some.injEq] at h
    obtain ⟨name, -, hname, rfl⟩ := h
    simpa using hname

theorem startsWith_of_declaration? (h : declaration? st text line = some s) :
    startsWith "@" text = false := by
  unfold declaration? at h
  split at h
  · cases h
  next hmark =>
    rw [Bool.or_eq_true, not_or] at hmark
    simpa using hmark.1

end Lines

/-! ## Files -/

section File
variable {file : List (List Char)} {s m : Symbol} {k : Nat} {raw : List Char}

/-- A symbol begins on a line of the file and ends there or further down. -/
theorem bounds_of_mem (hs : s ∈ symbolsOfLines file) :
    1 ≤ s.line ∧ s.line ≤ s.endLine ∧ s.endLine ≤ file.length := by
  obtain ⟨front, raw, behind, t, rfl, ht, rfl⟩ := mem_symbolsOfLines_iff.mp hs
  have hline := line_of_read ht
  have hlength : (front ++ raw :: behind).length = front.length + (raw :: behind).length :=
    List.length_append
  rcases blockEndFrom_cases ((stateBehind front).depth, false) (stateBehind front).depth false true
    (1 + front.length) (raw :: behind) (fun _ => Int.le_refl _) with
      ⟨n, hn, hstop, -, -⟩ | ⟨hnone, -⟩
  · rw [withEnd_line, hline]
    simp only [withEnd, hstop, Option.getD_some]
    omega
  · rw [withEnd_line, hline]
    simp only [withEnd, hnone, Option.getD_none]
    have hpos : 0 < (raw :: behind).length := Nat.succ_pos _
    omega

/-- A symbol is declared at the outermost level, or it is a member of the class that is open. -/
theorem member_or_topLevel (hs : s ∈ symbolsOfLines file) (hline : s.line = k + 1) :
    (lineCode file k).1 ≠ [] ∧ startsWith "@" (lineCode file k).1 = false ∧
      ((s.kind ≠ .method ∧ s.parent = "") ∨ s.kind = .method ∧ s.name ∉ keywords) := by
  obtain ⟨front, raw, behind, t, rfl, ht, rfl⟩ := mem_symbolsOfLines_iff.mp hs
  obtain rfl : k = front.length := by
    rw [withEnd_line, line_of_read ht] at hline
    omega
  have hdeclared := declaration?_of_read ht
  rw [lineCode_length]
  refine ⟨code_of_read ht, startsWith_of_declaration? hdeclared, ?_⟩
  rcases declaration?_cases hdeclared with ⟨-, htop⟩ | ⟨-, owner, -, hmember⟩
  · have htopLevel := And.intro (kind_of_topLevel? htop) (parent_of_topLevel? htop)
    exact .inl htopLevel
  · have hmethod := And.intro (kind_of_member? hmember).1 (name_of_member? hmember)
    exact .inr hmethod

theorem exists_line_eq (hs : s ∈ symbolsOfLines file) : ∃ k : Nat, s.line = k + 1 := by
  have hpos := (bounds_of_mem hs).1
  exact ⟨(s.line - 1).toNat, by omega⟩

theorem parent_ne_empty_iff (hs : s ∈ symbolsOfLines file) : s.parent ≠ "" ↔ s.kind = .method := by
  obtain ⟨k, hline⟩ := exists_line_eq hs
  rcases (member_or_topLevel hs hline).2.2 with ⟨hkind, hparent⟩ | ⟨hkind, -⟩
  · exact iff_of_false (fun h => h hparent) hkind
  · refine iff_of_true ?_ hkind
    obtain ⟨c, h, i, henc⟩ := exists_encloses hs hkind
    obtain ⟨n, raw, -, hdeclared⟩ := exists_isDeclaredBy henc.mem
    rw [← henc.name_eq]
    intro hempty
    exact hdeclared.name_ne (by rw [hempty]; rfl)

theorem lineCode_of_isHidden (hfile : ∀ raw ∈ file, '\n' ∉ raw) (hraw : file[k]? = some raw)
    (h : IsHidden (opensHidden file k) raw) : (lineCode file k).1 = [] := by
  rw [lineCode, inComment_eq_opensHidden hfile, List.getD_eq_getElem?_getD, hraw]
  exact h.codeOf_eq_nil

end File

/-- The symbols of a file are in the order of their lines, one a line, and lie within the file.
Those with a parent are the methods; the parent is the class that comes last in front of the method,
and its name is no keyword. No symbol is on a line that holds nothing but block comments, or whose
code begins with an at sign. -/
theorem symbols_structured (content : List UInt8) :
    let file := lines (Utf8.decode content)
    let found := symbols content
    found.Pairwise (fun s t => s.line < t.line) ∧
    (∀ s ∈ found, 1 ≤ s.line ∧ s.line ≤ s.endLine ∧ s.endLine ≤ file.length ∧
      (s.parent ≠ "" ↔ s.kind = .method)) ∧
    (∀ m ∈ found, m.kind = .method → m.name ∉ keywords ∧
      ∃ earlier c between later, found = earlier ++ c :: between ++ m :: later ∧
        c.kind = .classType ∧ c.name = m.parent ∧ ∀ s ∈ between, s.kind ≠ .classType) ∧
    ∀ (k : Nat) (raw : List Char), file[k]? = some raw →
      IsHidden (opensHidden file k) raw ∨ startsWith "@" (lineCode file k).1 = true →
      ∀ s ∈ found, s.line ≠ k + 1 := by
  intro file found
  have hfile : ∀ raw ∈ file, '\n' ∉ raw := fun raw hraw => not_mem_of_mem_splitOn hraw
  refine ⟨pairwise_symbolsFrom _ _ _ _, fun s hs => ?_, fun m hm hkind => ⟨?_, ?_⟩,
    fun k raw hraw hline s hs hsline => ?_⟩
  · obtain ⟨hpos, hle, hlength⟩ := bounds_of_mem hs
    exact ⟨hpos, hle, hlength, parent_ne_empty_iff hs⟩
  · obtain ⟨k, hline⟩ := exists_line_eq hm
    rcases (member_or_topLevel hm hline).2.2 with ⟨hother, -⟩ | ⟨-, hname⟩
    · exact absurd hkind hother
    · exact hname
  · obtain ⟨earlier, c, between, later, h, i, hlist, henc, hbetween⟩ := exists_class_before hm hkind
    exact ⟨earlier, c, between, later, hlist, henc.kind_eq, henc.name_eq, hbetween⟩
  · obtain ⟨hcode, hmark, -⟩ := member_or_topLevel hs hsline
    rcases hline with hhidden | hannotated
    · exact hcode (lineCode_of_isHidden hfile hraw hhidden)
    · rw [hmark] at hannotated
      cases hannotated

/-- A brace is closed that was never opened, a comment goes over two lines, an annotation stands in
front of a class, a keyword looks like a method, and the last class is never closed. -/
theorem symbols_structured_unbalanced :
    let content := Utf8.encode
      "\x7d\n\x7b\n/* class B \x7b\n*/\n@note class C \x7b\x7d\nclass A \x7b\n  if (x) \x7b\n  \x7d\n  m() \x7b\x7d\n".toList
    (symbols content).map (fun s => (s.name, s.kind, s.line, s.endLine, s.parent)) =
        [("A", .classType, 6, 10, ""), ("m", .method, 9, 9, "A")] ∧
      (∃ m ∈ symbols content, m.name = "m" ∧ m.kind = .method ∧
        ∃ earlier c between later, symbols content = earlier ++ c :: between ++ m :: later ∧
          c.name = m.parent) ∧
      ∀ s ∈ symbols content, s.line ≠ (3 : Nat) + 1 ∧ s.line ≠ (4 : Nat) + 1 := by
  intro content
  let file := lines (Utf8.decode content)
  obtain ⟨-, -, hmethod, hfree⟩ := symbols_structured content
  obtain ⟨m, hm, hname, hkind⟩ : ∃ m ∈ symbols content, m.name = "m" ∧
      m.kind = .method := by decide +kernel
  obtain ⟨-, earlier, c, between, later, hlist, -, hparent, -⟩ := hmethod m hm hkind
  have hcomment : file[3]? = some ['*', '/'] ∧ opensHidden file 3 = true := by decide +kernel
  have hhidden : IsHidden (opensHidden file 3) ['*', '/'] := by
    rw [hcomment.2]
    exact .closing (.nil false)
  have hannotated : file[4]? = some "@note class C \x7b\x7d".toList ∧
      startsWith "@" (lineCode file 4).1 = true := by
    decide +kernel
  refine ⟨by decide +kernel, ⟨m, hm, hname, hkind, earlier, c, between, later, hlist,
    hparent⟩, fun s hs => ⟨?_, ?_⟩⟩
  · exact hfree 3 _ hcomment.1 (.inl hhidden) s hs
  · exact hfree 4 _ hannotated.1 (.inr hannotated.2) s hs

end CodeAtlas.Outline.Braced
