import CodeAtlas.Proofs.Outline.Braced.Lexer

/-! # Comments taken out of a line

There is no comment in what is left of a line, and to take the comments out once more changes
nothing. What is left has the literals of the line.
-/
namespace CodeAtlas.Outline.Braced
open Text

/-! ## Texts without comments -/

/-- Outside of comments, what is written and what is held back make up the text. -/
theorem emit_append_held {z : Zone} {c : Char} (hz : z.isComment = false)
    (hnext : (z.onLine c).isComment = false) : z.emit c ++ (z.onLine c).held = z.held ++ [c] := by
  cases z with
  | code =>
    by_cases hc : c = '/'
    · subst hc
      rfl
    · rw [Zone.emit, if_neg hc, Zone.onLine_code, Zone.held_behindCode hc]
      rfl
  | slash =>
    by_cases hmark : c = '/' ∨ c = '*'
    · rcases hmark with rfl | rfl <;> cases hnext
    · obtain ⟨hslash, hstar⟩ := not_or.mp hmark
      rw [Zone.emit, if_neg hmark, Zone.onLine_slash hslash hstar, Zone.held_behindCode hslash]
      rfl
  | literal q =>
    rw [← Zone.visible_onLine_literal, Zone.held_visible]
    rfl
  | escape quote =>
    rw [Zone.onLine_escape]
    cases quote <;> rfl
  | lineComment => cases hz
  | blockComment => cases hz
  | star => cases hz

section Run
variable {z : Zone} {text : List Char}

theorem zoneOnLine_emitted (z : Zone) (text : List Char) :
    zoneOnLine z.visible (emitted z text) = (zoneOnLine z text).visible := by
  induction text generalizing z with
  | nil => rfl
  | cons c text ih => rw [emitted, zoneOnLine_append, zoneOnLine_emit, ih, zoneOnLine_cons]

/-- A text without comments is left as it is. -/
theorem emitted_append_held (h : ∀ front, front <+: text → (zoneOnLine z front).isComment = false) :
    emitted z text ++ (zoneOnLine z text).held = z.held ++ text := by
  induction text generalizing z with
  | nil => simp [emitted]
  | cons c text ih =>
    have hrest : ∀ front, front <+: text → (zoneOnLine (z.onLine c) front).isComment = false :=
      fun front hfront => h (c :: front) (List.cons_prefix_cons.mpr ⟨rfl, hfront⟩)
    have hstep : z.emit c ++ (z.onLine c).held = z.held ++ [c] :=
      emit_append_held (h [] List.nil_prefix) (hrest [] List.nil_prefix)
    calc emitted z (c :: text) ++ (zoneOnLine z (c :: text)).held
        = z.emit c ++ (emitted (z.onLine c) text ++ (zoneOnLine (z.onLine c) text).held) := by
          rw [emitted, List.append_assoc, zoneOnLine_cons]
      _ = z.emit c ++ (z.onLine c).held ++ text := by rw [ih hrest, List.append_assoc]
      _ = z.held ++ c :: text := by rw [hstep, List.append_assoc, List.singleton_append]

/-- Behind what is left of a text the lexer is where it is behind the text, unless that ends in
a comment. -/
theorem zoneOnLine_remains (hz : z.visible = z) (h : (zoneOnLine z text).isComment = false) :
    zoneOnLine z (remains z text).1 = zoneOnLine z text := by
  have hwritten : zoneOnLine z (emitted z text) = (zoneOnLine z text).visible := by
    rw [← zoneOnLine_emitted, hz]
  rw [remains, zoneOnLine_append, hwritten]
  generalize zoneOnLine z text = behind at h
  cases behind with
  | lineComment => cases h
  | blockComment => cases h
  | star => cases h
  | _ => rfl

end Run

/-! ## Literals -/

/-- A literal on a line, with what is in front of it and what is behind it. It begins with a quote
in code position, the literal is open as far as its last character, and it is closed there or the
line ends. -/
structure IsLiteral (front literal back : List Char) : Prop where
  isCode_front : (zoneOnLine .code front).isCode = true
  isQuote_head : ∃ q body, literal = q :: body ∧ isQuote q = true
  isLiteral_take : ∀ n < literal.length, 0 < n →
    (zoneOnLine .code (front ++ literal.take n)).isLiteral = true
  closed : zoneOnLine .code (front ++ literal) = .code ∨
    (zoneOnLine .code (front ++ literal)).isLiteral = true ∧ back = []

namespace IsLiteral
variable {front literal back : List Char}

theorem isComment_eq (h : IsLiteral front literal back) {part : List Char}
    (hpart : part <+: literal) : (zoneOnLine (zoneOnLine .code front) part).isComment = false := by
  rw [← zoneOnLine_append]
  rcases Nat.eq_zero_or_pos part.length with hzero | hpos
  · rw [List.length_eq_zero_iff.mp hzero, List.append_nil]
    exact Zone.isComment_of_isCode h.isCode_front
  · rcases Nat.lt_or_ge part.length literal.length with hlt | hge
    · have hopen := h.isLiteral_take part.length hlt hpos
      rw [← List.prefix_iff_eq_take.mp hpart] at hopen
      exact Zone.isComment_of_isLiteral hopen
    · rw [hpart.eq_of_length_le hge]
      rcases h.closed with hclosed | ⟨hopen, -⟩
      · rw [hclosed]
        rfl
      · exact Zone.isComment_of_isLiteral hopen

/-- A literal is written as it stands, behind a slash that was held back. -/
theorem emitted_eq (h : IsLiteral front literal back) :
    emitted (zoneOnLine .code front) literal = (zoneOnLine .code front).held ++ literal := by
  have hheld : (zoneOnLine .code (front ++ literal)).held = [] := by
    rcases h.closed with hclosed | ⟨hopen, -⟩
    · rw [hclosed]
      rfl
    · exact Zone.held_of_isLiteral hopen
  have hwritten := emitted_append_held fun part hpart => h.isComment_eq hpart
  rwa [← zoneOnLine_append, hheld, List.append_nil] at hwritten

/-- Comments are taken out on both sides of a literal. -/
theorem stripComments_eq (h : IsLiteral front literal back) :
    (stripComments (front ++ literal ++ back)).1 = (stripComments front).1 ++ literal ++
      (stripComments back).1 := by
  have hback : (remains (zoneOnLine .code (front ++ literal)) back).1 = (remains .code back).1 := by
    rcases h.closed with hclosed | ⟨hopen, rfl⟩
    · rw [hclosed]
    · exact Zone.held_of_isLiteral hopen
  simp only [stripComments_eq_remains]
  calc (remains .code (front ++ literal ++ back)).1
      = emitted .code front ++ emitted (zoneOnLine .code front) literal ++
          (remains (zoneOnLine .code (front ++ literal)) back).1 := by
        rw [remains_append, emitted_append]
    _ = (remains .code front).1 ++ literal ++ (remains .code back).1 := by
        rw [h.emitted_eq, hback, ← List.append_assoc]
        rfl

/-- A literal of a line is a literal of what is left of the line. -/
theorem stripped (h : IsLiteral front literal back) :
    IsLiteral (stripComments front).1 literal (stripComments back).1 := by
  have hfront : zoneOnLine .code (stripComments front).1 = zoneOnLine .code front := by
    rw [stripComments_eq_remains]
    exact zoneOnLine_remains rfl (Zone.isComment_of_isCode h.isCode_front)
  obtain ⟨hcode, hquote, htake, hclosed⟩ := h
  simp only [zoneOnLine_append, ← hfront] at htake hclosed
  refine ⟨hfront ▸ hcode, hquote, ?_, ?_⟩
  · simpa only [zoneOnLine_append] using htake
  · rw [zoneOnLine_append]
    exact hclosed.imp_right fun hopen => ⟨hopen.1, by rw [hopen.2]; rfl⟩

end IsLiteral

/-- A line without its comments has no comment, and to take comments out of it changes nothing. It
has the literals of the line, each between what is left on either side of it. A comment is left open
if the lexer ends in one. -/
theorem stripComments_idempotent (line : List Char) :
    let code := (stripComments line).1
    stripComments code = (code, false) ∧
    (∀ front, front <+: code → (zoneOnLine .code front).isComment = false) ∧
    (∀ front literal back, line = front ++ literal ++ back → IsLiteral front literal back →
      code = (stripComments front).1 ++ literal ++ (stripComments back).1 ∧
        IsLiteral (stripComments front).1 literal (stripComments back).1) ∧
    ((stripComments line).2 = true ↔ (zoneOnLine .code line).isBlock = true) := by
  intro code
  have hcode : code = (remains .code line).1 := congrArg Prod.fst (stripComments_eq_remains line)
  have hclean : ∀ front, front <+: code → (zoneOnLine .code front).isComment = false := by
    intro front hfront
    rw [hcode] at hfront
    exact isComment_remains hfront
  refine ⟨?_, hclean, ?_, ?_⟩
  · have hopen := Zone.isBlock_of_isComment (hclean code (List.prefix_refl code))
    rw [stripComments_eq_remains, remains, emitted_append_held hclean, hopen]
    rfl
  · rintro front literal back rfl hliteral
    exact ⟨hliteral.stripComments_eq, hliteral.stripped⟩
  · rw [stripComments_eq_remains]
    exact Iff.rfl

/-- The literal has an escaped quote and a mark of a comment. There is a quote in the comment in
front of it, a slash and another literal behind it, and an open comment at the end. -/
theorem stripComments_idempotent_marks :
    let front := "a /*\"/*/ + ".toList
    let literal := "\"x\\\"/*\"".toList
    let back := " / '//' /* b".toList
    let code := (stripComments (front ++ literal ++ back)).1
    IsLiteral front literal back ∧ IsLiteral (stripComments front).1 literal
      (stripComments back).1 ∧ code = "a   + \"x\\\"/*\" / '//' ".toList ∧
      stripComments code = (code, false) ∧ (stripComments (front ++ literal ++ back)).2 = true := by
  intro front literal back code
  have hliteral : IsLiteral front literal back :=
    ⟨by decide +kernel, ⟨'"', "x\\\"/*\"".toList, by decide +kernel, by decide⟩,
      by decide +kernel, by decide +kernel⟩
  obtain ⟨hsame, -, hkept, hopen⟩ := stripComments_idempotent (front ++ literal ++ back)
  exact ⟨hliteral, (hkept front literal back rfl hliteral).2, by decide +kernel, hsame,
    hopen.mpr (by decide +kernel)⟩

end CodeAtlas.Outline.Braced
