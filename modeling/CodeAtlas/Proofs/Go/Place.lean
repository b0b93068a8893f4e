import CodeAtlas.Proofs.Go.Reader
import CodeAtlas.Proofs.Text.Lines

/-! # Where identifiers stand

An identifier is as long as it can be, so that no further character of an identifier is next to it.
There are word characters that no identifier holds, and nothing can be read where one of them
stands. Between the two, an identifier in front of something that can be read is a whole word,
unless it begins or ends with a character that is no word character.
-/
namespace CodeAtlas.Go
open Text Reader

variable {text before : List Char} {c d : Cursor}

/-! ## Places -/

/-- The place lies in the text, behind the given part of it. -/
structure IsPlace (text before : List Char) (c : Cursor) : Prop where
  text_eq : text = before ++ c.rest
  line_eq : c.line = before.count '\n' + 1

theorem IsPlace.move {read : List Char} (h : IsPlace text before c) (hread : c.Spans read d) :
    IsPlace text (before ++ read) d where
  text_eq := by rw [h.text_eq, hread.rest_eq, List.append_assoc]
  line_eq := by rw [hread.line_eq, h.line_eq, List.count_append, Nat.add_right_comm]

/-- The place lies in the text. -/
def Within (text : List Char) (c : Cursor) : Prop := ∃ before, IsPlace text before c

theorem Within.leads (h : Within text c) (hleads : c.Leads d) : Within text d := by
  obtain ⟨before, h⟩ := h
  obtain ⟨read, hread⟩ := hleads
  exact ⟨_, h.move hread⟩

/-- No word in front of the place runs into an identifier at it. -/
def IsOpen (text : List Char) (c : Cursor) : Prop :=
  ∃ before, IsPlace text before c ∧
    (before.getLast?.any isWordChar = true → c.peek?.any isIdentifierContinue = false)

theorem IsOpen.within (h : IsOpen text c) : Within text c := by
  obtain ⟨before, h, -⟩ := h
  exact ⟨before, h⟩

/-! ## Gaps -/

/-- How many comments came before does not count for where a gap ends. -/
theorem gapFrom_fst_eq (crossing : Bool) (opened : Cursor) (mode : Cursor.GapMode)
    (comments others line offset : Nat) (text : List Char) :
    (Cursor.gapFrom crossing opened mode comments line offset text).1 =
      (Cursor.gapFrom crossing opened mode others line offset text).1 := by
  fun_induction Cursor.gapFrom crossing opened mode comments line offset text
    generalizing others with
  | case1 opened comments line offset rest ih => exact ih (others + 1)
  | case2 opened comments line offset rest ih => exact ih (others + 1)
  | case3 opened comments line offset rest hcrossing ih =>
    simpa [Cursor.gapFrom, hcrossing] using ih others
  | case4 opened comments line offset rest hcrossing => simp [Cursor.gapFrom, hcrossing]
  | case5 opened comments line offset ch rest hline hblock hfeed hspace ih =>
    rw [Cursor.gapFrom, if_pos hspace]
    · exact ih others
    · exact hline
    · exact hblock
    · exact hfeed
  | case6 opened comments line offset ch rest hline hblock hfeed hspace =>
    rw [Cursor.gapFrom, if_neg hspace]
    · exact hline
    · exact hblock
    · exact hfeed
  | case7 opened comments line offset rest hcrossing ih =>
    simpa [Cursor.gapFrom, hcrossing] using ih others
  | case8 opened comments line offset rest hcrossing => simp [Cursor.gapFrom, hcrossing]
  | case9 opened comments line offset ch rest hfeed ih =>
    rw [Cursor.gapFrom]
    · exact ih others
    · exact hfeed
  | case10 opened comments line offset rest ih => exact ih others
  | case11 opened comments line offset ch rest hclose ih =>
    rw [Cursor.gapFrom]
    · exact ih others
    · exact hclose
  | case12 => rfl
  | case13 opened mode comments line offset hmode =>
    cases mode with
    | blank => rfl
    | lineComment => rfl
    | blockComment => exact absurd rfl hmode

/-- Behind a gap there is none. In a block comment that may be left open, the gap at its beginning
comes to where this one does. -/
theorem skip_gapFrom (crossing : Bool) (opened : Cursor) (mode : Cursor.GapMode)
    (comments line offset : Nat) (text : List Char) (h : mode = .blockComment →
      (Cursor.gapFrom crossing opened .blockComment 0 line offset text).1 = opened.skip crossing) :
    (Cursor.gapFrom crossing opened mode comments line offset text).1.skip crossing =
      (Cursor.gapFrom crossing opened mode comments line offset text).1 := by
  fun_induction Cursor.gapFrom crossing opened mode comments line offset text with
  | case1 opened comments line offset rest ih => exact ih (by simp)
  | case2 opened comments line offset rest ih =>
    exact ih fun _ => gapFrom_fst_eq crossing _ _ _ _ _ _ _
  | case3 opened comments line offset rest hcrossing ih => exact ih (by simp)
  | case4 opened comments line offset rest hcrossing =>
    simp [Cursor.skip, Cursor.gap, Cursor.gapFrom, hcrossing]
  | case5 opened comments line offset ch rest hline hblock hfeed hspace ih => exact ih (by simp)
  | case6 opened comments line offset ch rest hline hblock hfeed hspace =>
    rw [Cursor.skip, Cursor.gap, Cursor.gapFrom, if_neg hspace]
    · exact hline
    · exact hblock
    · exact hfeed
  | case7 opened comments line offset rest hcrossing ih => exact ih (by simp)
  | case8 opened comments line offset rest hcrossing =>
    simp [Cursor.skip, Cursor.gap, Cursor.gapFrom, hcrossing]
  | case9 opened comments line offset ch rest hfeed ih => exact ih (by simp)
  | case10 opened comments line offset rest ih => exact ih (by simp)
  | case11 opened comments line offset ch rest hclose ih =>
    refine ih fun _ => ?_
    have hhere := h rfl
    rw [Cursor.gapFrom] at hhere
    · exact hhere
    · exact hclose
  | case12 opened comments line offset => exact (h rfl).symm
  | case13 opened mode comments line offset hmode => rfl

theorem skip_skip (c : Cursor) (crossing : Bool) :
    (c.skip crossing).skip crossing = c.skip crossing :=
  skip_gapFrom crossing c .blank 0 c.line c.offset c.rest (by simp)

/-! ## Words and signs -/

theorem spans_advance_length {read rest : List Char} (h : c.rest = read ++ rest) :
    c.Spans read (c.advance read.length) := by
  have hspans := c.spans_advance read.length
  rwa [h, List.take_left] at hspans

theorem spans_of_sign? {s : String} (h : c.sign? s = some d) : c.Spans s.toList d := by
  obtain ⟨hstarts, hd⟩ := Option.ite_none_right_eq_some.mp h
  obtain ⟨rest, hrest⟩ := Option.isSome_iff_exists.mp hstarts
  have hspans := spans_advance_length (after?_eq_some_iff.mp hrest)
  rw [String.length_toList, Option.some.inj hd] at hspans
  exact hspans

/-- A word is a run of characters of an identifier that goes on as far as it can. -/
structure IsWordAt (c : Cursor) (w : List Char) (d : Cursor) : Prop where
  spans : c.Spans w d
  head : w.head?.any isIdentifierStart = true
  all : ∀ ch ∈ w, isIdentifierContinue ch = true
  peek : d.peek?.any isIdentifierContinue = false

theorem isWordAt_of_word? {w : String} (h : c.word? = some (w, d)) : IsWordAt c w.toList d := by
  unfold Cursor.word? at h
  split at h
  · cases h
  next ch rest hrest =>
    obtain ⟨hstart, h⟩ := Option.ite_none_right_eq_some.mp h
    obtain ⟨rfl, rfl⟩ := Prod.mk.inj (Option.some.inj h)
    rw [String.toList_ofList]
    have hcut :
        c.rest = ch :: rest.takeWhile isIdentifierContinue ++
        rest.dropWhile isIdentifierContinue := by
      rw [hrest, List.cons_append, List.takeWhile_append_dropWhile]
    have hspans := spans_advance_length hcut
    refine ⟨hspans, hstart, ?_, ?_⟩
    · refine List.forall_mem_cons.mpr ⟨isIdentifierContinue_of_isIdentifierStart hstart,
        fun x hx => ?_⟩
      exact List.mem_takeWhile_imp hx
    · have hbehind := List.append_cancel_left (hcut.symm.trans hspans.rest_eq)
      rw [Cursor.peek?, ← hbehind]
      cases hdrop : rest.dropWhile isIdentifierContinue with
      | nil => rfl
      | cons x more =>
        have hnot := List.head?_dropWhile_not (p := isIdentifierContinue) (l := rest)
        simpa [hdrop] using hnot

theorem isWordAt_of_keyword? {w : String} (h : c.keyword? w = some d) : IsWordAt c w.toList d := by
  unfold Cursor.keyword? at h
  split at h
  next word behind hword =>
    obtain ⟨hw, hd⟩ := Option.ite_none_right_eq_some.mp h
    obtain rfl := beq_iff_eq.mp hw
    exact Option.some.inj hd ▸ isWordAt_of_word? hword
  · cases h

theorem isWordAt_of_identifier? {name : String} (h : c.identifier? = some (name, d)) :
    IsWordAt c name.toList d := by
  unfold Cursor.identifier? at h
  split at h
  next word behind hword =>
    obtain ⟨-, h⟩ := Option.ite_none_left_eq_some.mp h
    obtain ⟨rfl, rfl⟩ := Prod.mk.inj (Option.some.inj h)
    exact isWordAt_of_word? hword
  · cases h

namespace IsWordAt
variable {w : List Char}

theorem ne_nil (h : IsWordAt c w d) : w ≠ [] := by
  rintro rfl
  cases h.head

theorem newline_not_mem (h : IsWordAt c w d) : '\n' ∉ w := fun hmem =>
  absurd (h.all '\n' hmem) (by decide)

theorem line_eq (h : IsWordAt c w d) : d.line = c.line := by
  rw [h.spans.line_eq, List.count_eq_zero_of_not_mem h.newline_not_mem, Nat.add_zero]

theorem peek?_eq (h : IsWordAt c w d) : ∃ ch, c.peek? = some ch ∧ isIdentifierStart ch = true := by
  have hhead := h.head
  cases hw : w.head? with
  | none => simp [hw] at hhead
  | some ch =>
    rw [hw] at hhead
    refine ⟨ch, ?_, hhead⟩
    rw [Cursor.peek?, h.spans.rest_eq, List.head?_append, hw, Option.some_or]

end IsWordAt

/-! ## The edge in front of an identifier -/

theorem isWordChar_of_isSpace {ch : Char} (h : Cursor.isSpace ch = true) :
    isWordChar ch = false := by
  refine isWordChar_of_isBlank ?_
  simp only [Cursor.isSpace, Bool.or_eq_true, beq_iff_eq, Bool.and_eq_true, decide_eq_true_eq] at h
  rcases h with rfl | ⟨hlow, hhigh⟩
  · decide
  · have hlow : 0x09 ≤ ch.toNat := hlow
    have hhigh : ch.toNat ≤ 0x0D := hhigh
    have hascii : ch.toNat < 0x80 := by omega
    simp [isBlank, hascii, hlow, hhigh]

theorem isOpen_of_sign? {s : String} (hc : Within text c) (h : c.sign? s = some d)
    (hne : s.toList ≠ []) (hs : s.toList.getLast?.any isWordChar = false) : IsOpen text d := by
  obtain ⟨before, hc⟩ := hc
  refine ⟨_, hc.move (spans_of_sign? h), fun hword => ?_⟩
  rw [List.getLast?_append, List.getLast?_eq_some_getLast hne, Option.some_or,
    ← List.getLast?_eq_some_getLast hne, hs] at hword
  cases hword

theorem isOpen_of_token {s : String} {crossing : Bool} {u : Unit} (hc : Within text c)
    (h : Reads (token s crossing) c u d) (hne : s.toList ≠ [])
    (hs : s.toList.getLast?.any isWordChar = false) : IsOpen text d :=
  isOpen_of_sign? (hc.leads (c.leads_skip crossing)) (reads_token.mp h) hne hs

theorem isOpen_of_keyword {w : String} {crossing : Bool} {u : Unit} (hc : Within text c)
    (h : Reads (keyword w crossing) c u d) : IsOpen text d := by
  have hword := isWordAt_of_keyword? (reads_keyword.mp h)
  obtain ⟨before, hd⟩ := hc.leads h.leads
  exact ⟨before, hd, fun _ => hword.peek⟩

theorem isOpen_of_terminator {u : Unit} (hc : Within text c) (h : Reads terminator c u d) :
    IsOpen text d := by
  obtain ⟨s, hs, h⟩ := exists_token_of_terminator h
  have hsign : ∀ s ∈ terminators, s.toList ≠ [] ∧
      s.toList.getLast?.any isWordChar = false := by decide
  exact isOpen_of_token hc h (hsign s hs).1 (hsign s hs).2

/-- An identifier behind the gap at an open place is a whole word, if it ends where no word
character follows. -/
theorem standsOn_of_isWordAt {crossing : Bool} {w : List Char} (hc : IsOpen text c)
    (h : IsWordAt (c.skip crossing) w d) (hd : d.peek?.any isWordChar = false) :
    StandsOn text w (c.skip crossing).line := by
  obtain ⟨before, hplace, hopen⟩ := hc
  obtain ⟨gap, hgap, hlast⟩ := c.endsGap_skip crossing
  obtain ⟨ch, hpeek, hstart⟩ := h.peek?_eq
  have hname := hplace.move hgap
  refine ⟨h.newline_not_mem, before ++ gap, d.rest, ?_, hname.line_eq, ?_, hd⟩
  · rw [List.append_assoc, ← h.spans.rest_eq]
    exact hname.text_eq
  · refine eq_false_of_ne_true fun hword => ?_
    cases hend : gap.getLast? with
    | none =>
      -- the identifier stands right at the place
      obtain rfl := List.getLast?_eq_none_iff.mp hend
      have hhere : c.peek? = some ch := by
        rw [← hpeek, Cursor.peek?, Cursor.peek?, hgap.rest_eq, List.nil_append]
      rw [List.append_nil] at hword
      have hnot := hopen hword
      rw [hhere, Option.any_some, isIdentifierContinue_of_isIdentifierStart hstart] at hnot
      cases hnot
    | some last =>
      rw [List.getLast?_append, hend, Option.some_or, Option.any_some] at hword
      rcases hlast last hend with hspace | rfl | hnone | hfeed
      · rw [isWordChar_of_isSpace hspace] at hword
        cases hword
      · exact absurd hword (by decide)
      · rw [hnone] at hpeek
        cases hpeek
      · obtain rfl : '\n' = ch := by simpa [hfeed] using hpeek
        exact absurd hstart (by decide)

/-! ## The edge behind an identifier -/

/-- A word character stands at the place that no identifier can hold. -/
def IsStray (c : Cursor) : Prop :=
  c.peek?.any isWordChar = true ∧ c.peek?.any isIdentifierContinue = false

theorem IsWordAt.peek?_any {w : List Char} (h : IsWordAt c w d) (hd : ¬ IsStray d) :
    d.peek?.any isWordChar = false :=
  eq_false_of_ne_true fun hword => hd ⟨hword, h.peek⟩

namespace IsStray

theorem exists_peek? (h : IsStray c) :
    ∃ ch, c.peek? = some ch ∧ isWordChar ch = true ∧ isIdentifierStart ch = false := by
  obtain ⟨hword, hcontinue⟩ := h
  cases hpeek : c.peek? with
  | none => simp [hpeek] at hword
  | some ch =>
    rw [hpeek, Option.any_some] at hword hcontinue
    refine ⟨ch, rfl, hword, eq_false_of_ne_true fun hstart => ?_⟩
    rw [isIdentifierContinue_of_isIdentifierStart hstart] at hcontinue
    cases hcontinue

/-- There is no gap in front of a word character. -/
theorem skip_eq (h : IsStray c) (crossing : Bool) : c.skip crossing = c := by
  obtain ⟨ch, hpeek, hword, -⟩ := h.exists_peek?
  have hslash : ch ≠ '/' := fun he => absurd (he ▸ hword) (by decide)
  have hfeed : ch ≠ '\n' := fun he => absurd (he ▸ hword) (by decide)
  have hspace : Cursor.isSpace ch = false := eq_false_of_ne_true fun hspace => by
    rw [isWordChar_of_isSpace hspace] at hword
    cases hword
  obtain ⟨rest, line, offset⟩ := c
  cases rest with
  | nil => cases hpeek
  | cons x rest =>
    obtain rfl : x = ch := by simpa [Cursor.peek?] using hpeek
    rw [Cursor.skip, Cursor.gap, Cursor.gapFrom]
    · simp [hspace]
    · exact fun _ he => absurd he hslash
    · exact fun _ he => absurd he hslash
    · exact hfeed

theorem not_reads_token {s : String} {crossing : Bool} {u : Unit} (h : IsStray c)
    (hs : s.toList.head?.any (!isWordChar ·) = true) : ¬ Reads (token s crossing) c u d := by
  intro hread
  obtain ⟨ch, hpeek, hword, -⟩ := h.exists_peek?
  have hspans := spans_of_sign? (reads_token.mp hread)
  rw [h.skip_eq crossing] at hspans
  rw [Cursor.peek?, hspans.rest_eq, List.head?_append] at hpeek
  cases hhead : s.toList.head? with
  | none => simp [hhead] at hs
  | some x =>
    rw [hhead, Option.some_or, Option.some.injEq] at hpeek
    subst hpeek
    simp [hhead, hword] at hs

theorem word?_eq (h : IsStray c) (crossing : Bool) : (c.skip crossing).word? = none := by
  rw [h.skip_eq crossing]
  cases hword : c.word? with
  | none => rfl
  | some found =>
    obtain ⟨ch, hpeek, -, hstart⟩ := h.exists_peek?
    obtain ⟨x, hx, hx'⟩ := (isWordAt_of_word? hword).peek?_eq
    obtain rfl : ch = x := by simpa [hpeek] using hx
    rw [hstart] at hx'
    cases hx'

theorem not_reads_identifier {crossing : Bool} {name : String} (h : IsStray c) :
    ¬ Reads (identifier crossing) c name d := by
  rw [reads_identifier, Cursor.identifier?, h.word?_eq crossing]
  exact nofun

theorem not_reads_terminator {u : Unit} (h : IsStray c) : ¬ Reads terminator c u d := by
  intro hread
  obtain ⟨s, hs, hread⟩ := exists_token_of_terminator hread
  have hsign : ∀ s ∈ terminators, s.toList.head?.any (!isWordChar ·) = true := by decide
  exact h.not_reads_token (hsign s hs) hread

/-- No type begins with a stray character. -/
theorem not_reads_typeRule {g : Grammar} {ctx : Context} {shape : TypeShape} (h : IsStray c) :
    ¬ Reads (g.typeRule ctx) c shape d := by
  intro hread
  obtain ⟨ch, hpeek, hword, -⟩ := h.exists_peek?
  simp only [Grammar.typeRule, reads_bind, reads_next?, h.skip_eq, hpeek] at hread
  obtain ⟨_, _, ⟨rfl, rfl⟩, hread⟩ := hread
  have hsign (sign : Char) (hne : isWordChar sign = false) (he : some ch = some sign) : False := by
    rw [Option.some.inj he, hne] at hword
    cases hword
  split at hread
  next he => exact hsign '*' (by decide) he
  next he => exact hsign '(' (by decide) he
  next he => exact hsign '[' (by decide) he
  next he => exact hsign '~' (by decide) he
  next he => exact hsign '<' (by decide) he
  next =>
    -- there is no word at the place, so that no keyword is found
    simp only [Grammar.wordAhead, reads_bind, reads_look, h.word?_eq] at hread
    obtain ⟨_, _, ⟨rfl, rfl⟩, hread⟩ := hread
    rw [if_neg (by decide)] at hread
    simp only [Grammar.namedType, reads_bind] at hread
    obtain ⟨_, _, hname, -⟩ := hread
    exact h.not_reads_identifier hname

end IsStray

end CodeAtlas.Go
