import CodeAtlas.Proofs.Outline.Braced.Alike
import CodeAtlas.Proofs.Outline.Braced.CodePosition
import CodeAtlas.Proofs.Outline.Braced.Quote

/-! # The content of literals

A literal that stands in code position hides its content: comments are taken out around it, no brace
of it counts, and no declaration reaches into it. This is so as long as the literal ends on its
line, for the line feed ends every literal, a template literal too.
-/
namespace CodeAtlas.Outline.Braced
open Text

/-! ## One line -/

/-- The content of a literal in code position: no end of the literal, of the line, and no
backslash. -/
structure IsContent (quote : Char) (content : List Char) : Prop where
  quote_not_mem : quote ∉ content
  escape_not_mem : '\\' ∉ content
  feed_not_mem : '\n' ∉ content

theorem zoneBehind_gap {z : Zone} (hz : z = .code ∨ z = .blockComment) {gap : List Char}
    (h : ∀ c ∈ gap, isBlank c = true) : zoneBehind z gap = z := by
  induction gap with
  | nil => rfl
  | cons c gap ih =>
    obtain ⟨hc, hgap⟩ := List.forall_mem_cons.mp h
    rw [zoneBehind_cons, next_of_isBlank hz hc, ih hgap]

theorem zoneBehind_trimStart {z : Zone} (hz : z = .code ∨ z = .blockComment) (front : List Char) :
    zoneBehind z (trimStart front) = zoneBehind z front := by
  obtain ⟨gap, hgap, hfront⟩ := exists_trimStart front
  calc zoneBehind z (trimStart front)
      = zoneBehind (zoneBehind z gap) (trimStart front) := by rw [zoneBehind_gap hz hgap]
    _ = zoneBehind z front := by rw [← zoneBehind_append, ← hfront]

theorem outcome_append (z : Zone) (front rest : List Char) :
    outcome z (front ++ rest) = (openBraces (zonedFrom z front) +
      (outcome (zoneBehind z front) rest).1, (outcome (zoneBehind z front) rest).2) := by
  induction front generalizing z with
  | nil => simp [zonedFrom, openBraces, countCode]
  | cons c front ih => simp [outcome_cons, ih, zonedFrom, openBraces_cons, Int.add_assoc]

section Literal
variable {quote : Char} (hquote : isQuote quote = true)
include hquote

/-- The content of a literal is left as it is. -/
theorem remains_content {content : List Char} (hcontent : IsContent quote content)
    (back : List Char) : remains (.literal quote) (content ++ quote :: back) =
      (content ++ quote :: (remains .code back).1, (remains .code back).2) := by
  obtain ⟨hend, hescape, -⟩ := hcontent
  induction content with
  | nil =>
    have hbackslash : quote ≠ '\\' := ne_of_isQuote hquote (by decide)
    simp [remains_literal hquote hbackslash, nextQuote, zoneOf]
  | cons c content ih =>
    simp only [List.mem_cons, not_or] at hend hescape
    have hnext : nextQuote (some quote) c = some quote := by simp [nextQuote, Ne.symm hend.1]
    rw [List.cons_append, remains_literal hquote (Ne.symm hescape.1), hnext, zoneOf,
      ih hend.2 hescape.2]
    rfl

/-- The comments are taken out on both sides of a literal. -/
theorem remains_quoted {z : Zone} {front content : List Char}
    (hcode : (zoneOnLine z front).isCode = true) (hcontent : IsContent quote content)
    (back : List Char) : remains z (front ++ quote :: (content ++ quote :: back)) =
      ((remains z front).1 ++ quote :: (content ++ quote :: (remains .code back).1),
        (remains .code back).2) := by
  rw [remains_append, remains_quote hcode hquote, remains_content hquote hcontent]
  simp [remains]

/-- The code of a line around a literal does not depend on the literal. -/
theorem codeOf_literal (inComment : Bool) {front : List Char} (back : List Char)
    (hfeed : '\n' ∉ front) (hcode : (zoneBehind (startZone inComment) front).isCode = true) :
    ∃ before after isOpen, ∀ content, IsContent quote content →
      codeOf inComment (front ++ quote :: (content ++ quote :: back)) =
        (before ++ quote :: (content ++ quote :: after), isOpen) := by
  have hblank := isBlank_of_isQuote hquote
  have hstart : startZone inComment = .code ∨ startZone inComment = .blockComment := by
    cases inComment <;> simp [startZone]
  have hfront : (zoneOnLine (startZone inComment) (trimStart front)).isCode = true := by
    have htrim : '\n' ∉ trimStart front := fun hmem => hfeed (List.dropWhile_subset _ hmem)
    rw [zoneOnLine_eq_zoneBehind _ htrim, zoneBehind_trimStart hstart, hcode]
  refine ⟨trimStart (remains (startZone inComment) (trimStart front)).1,
    trimEnd (remains .code (trimEnd back)).1, (remains .code (trimEnd back)).2,
    fun content hcontent => ?_⟩
  have htrim : trim (front ++ quote :: (content ++ quote :: back)) =
      trimStart front ++ quote :: (content ++ quote :: trimEnd back) := by
    rw [trim, trimStart_append hblank, trimEnd_append hblank, trimEnd_append hblank]
  rw [codeOf, htrim, strip_eq_remains, remains_quoted hquote hfront hcontent]
  simp only [trim, trimStart_append hblank, trimEnd_append hblank]

/-- A literal has no braces in code position, and there is code behind it. -/
theorem outcome_quoted {z : Zone} (hz : z.isCode = true) {content : List Char}
    (hcontent : IsContent quote content) (back : List Char) :
    outcome z (quote :: (content ++ quote :: back)) = outcome .code back := by
  have hescape : quote ≠ '\\' := ne_of_isQuote hquote (by decide)
  have hfeed : quote ≠ '\n' := ne_of_isQuote hquote (by decide)
  have hopen : z.next quote = .literal quote := by
    rw [← Zone.onLine_of_ne z hfeed, Zone.onLine_quote hz hquote]
  have hweight : braceWeight quote = 0 := by
    have hbrace : quote ≠ '{' := ne_of_isQuote hquote (by decide)
    have hclose : quote ≠ '}' := ne_of_isQuote hquote (by decide)
    simp [braceWeight, hbrace, hclose]
  have hinside : outcome (.literal quote) (content ++ quote :: back) = outcome .code back := by
    obtain ⟨hend, hslash, hline⟩ := hcontent
    induction content with
    | nil => simp [outcome_cons, Zone.isCode, Zone.next, hfeed, hescape]
    | cons c content ih =>
      simp only [List.mem_cons, not_or] at hend hslash hline
      have hnext : Zone.next (.literal quote) c = .literal quote := by
        simp [Zone.next, Ne.symm hend.1, Ne.symm hslash.1, Ne.symm hline.1]
      rw [List.cons_append, outcome_cons, hnext, ih hend.2 hslash.2 hline.2]
      simp [Zone.isCode]
  rw [outcome_cons, hopen, hinside, hweight]
  simp

/-- All that is taken from the code of a line around a literal, but for the text of a signature, is
the same for every content of the literal. -/
theorem codeOf_literal_congr (inComment : Bool) {front back content content' : List Char}
    (hfront : '\n' ∉ front) (hback : '\n' ∉ back)
    (hcode : (zoneBehind (startZone inComment) front).isCode = true)
    (hcontent : IsContent quote content) (hcontent' : IsContent quote content') :
    let code := codeOf inComment (front ++ quote :: (content ++ quote :: back))
    let code' := codeOf inComment (front ++ quote :: (content' ++ quote :: back))
    glance code = glance code' ∧
      ∀ st line, (declaration? st code.1 line).map heading =
        (declaration? st code'.1 line).map heading := by
  intro code code'
  have hraw {content : List Char} (h : IsContent quote content) :
      '\n' ∉ front ++ quote :: (content ++ quote :: back) := by
    have hfeed : '\n' ≠ quote := (ne_of_isQuote hquote (by decide)).symm
    simp [hfront, hback, hfeed, h.feed_not_mem]
  have hbalance : braceBalance code.1 = braceBalance code'.1 := by
    have houtcome := (codeOf_outcome inComment (hraw hcontent)).trans ((outcome_append ..).trans
      (by rw [outcome_quoted hquote hcode hcontent, ← outcome_quoted hquote hcode
        hcontent', ← outcome_append]))
    exact congrArg Prod.fst (houtcome.trans (codeOf_outcome inComment (hraw hcontent')).symm)
  obtain ⟨before, after, isOpen, hform⟩ := codeOf_literal hquote inComment back hfront hcode
  have hform' : code' = _ := hform content' hcontent'
  have hform : code = _ := hform content hcontent
  have hends {tail : String} (h : tail.toList.any isQuote = false) :
      endsWith tail code.1 = endsWith tail code'.1 := by
    rw [hform, hform']
    simpa using endsWith_append (not_mem_of_isQuote hquote h) (before ++ quote :: content)
      (before ++ quote :: content') after
  have hcontinued : isContinued code.1 = isContinued code'.1 := by
    have hall : ∀ tail ∈ continuations, tail.toList.any isQuote = false := by decide
    rw [Bool.eq_iff_iff, isContinued, isContinued, List.any_eq_true, List.any_eq_true]
    exact exists_congr fun tail => and_congr_right fun htail => by rw [hends (hall tail htail)]
  refine ⟨?_, fun st line => ?_⟩
  · have hempty : code.1.isEmpty = code'.1.isEmpty := by
      rw [hform, hform']
      cases before <;> rfl
    rw [glance, glance, hempty, hbalance, hends (by decide), hcontinued, hform, hform']
  · rw [hform, hform']
    exact blind_declaration? hquote st line before _ _

end Literal

/-! ## Texts -/

/-- What the machine knows behind a line feed is what the state tells of the lines in
front of it. -/
theorem zoneBehind_feed (text : List Char) :
    zoneBehind .code (text ++ ['\n']) = startZone (stateBehind (lines text)).inComment := by
  have hlines : ∀ raw ∈ lines text, '\n' ∉ raw := fun raw hraw => not_mem_of_mem_splitOn hraw
  have houtcome := congrArg Prod.snd (stateFrom_outcome {} 1 hlines)
  have hcomment : (stateBehind (lines text)).inComment = (zoneBehind .code text).isBlock := by
    rwa [lines, intercalate_splitOn] at houtcome
  simp [hcomment, Zone.next, startZone]

/-- The lines in front of a place, and what is in front of it on its own line. -/
theorem exists_lines_before (before : List Char) : ∃ above front, '\n' ∉ front ∧
    (∀ rest, lines (before ++ rest) = above ++ lines (front ++ rest)) ∧
    zoneBehind .code before = zoneBehind (startZone (stateBehind above).inComment) front := by
  obtain ⟨head, front, rfl, hhead, hfront⟩ := exists_cut_before before
  rcases hhead with rfl | ⟨text, rfl⟩
  · exact ⟨[], front, hfront, fun rest => rfl, rfl⟩
  · refine ⟨lines text, front, hfront, fun rest => ?_, ?_⟩
    · rw [List.append_assoc, List.append_assoc, List.singleton_append, lines, splitOn_append_sep]
      rfl
    · rw [zoneBehind_append, zoneBehind_feed]

/-- What is behind a place on its own line, and the lines below. -/
theorem exists_lines_after (after : List Char) : ∃ back below, '\n' ∉ back ∧
    ∀ line, '\n' ∉ line → lines (line ++ after) = (line ++ back) :: below := by
  obtain ⟨back, tail, rfl, hback, htail⟩ := exists_cut_after after
  rcases htail with rfl | ⟨text, rfl⟩
  · refine ⟨back, [], hback, fun line hline => ?_⟩
    rw [List.append_nil, lines, splitOn_of_not_mem (by simp [hline, hback])]
  · refine ⟨back, lines text, hback, fun line hline => ?_⟩
    rw [← List.append_assoc, lines, splitOn_append_sep, splitOn_of_not_mem (by simp [hline, hback])]
    rfl

/-- The content of a literal that stands in code position, on one line and without a backslash,
makes no difference to the symbols of a file: whatever else stands between its quotes, there are the
same symbols, and each has the same extent if its line reads alone. -/
theorem symbols_literal (content content' : List UInt8) (quote : Char)
    (before inside inside' after : List Char) (hquote : isQuote quote = true)
    (hcode : (zoneBehind .code before).isCode = true) (hinside : IsContent quote inside)
    (hinside' : IsContent quote inside')
    (htext : Utf8.decode content = before ++ quote :: (inside ++ quote :: after))
    (htext' : Utf8.decode content' = before ++ quote :: (inside' ++ quote :: after)) :
    List.Forall₂ (Matches (lines (Utf8.decode content)) (lines (Utf8.decode content')))
      (symbols content) (symbols content') := by
  obtain ⟨above, front, hfront, habove, hzone⟩ := exists_lines_before before
  obtain ⟨back, below, hback, hbelow⟩ := exists_lines_after after
  have hfeed : '\n' ≠ quote := (ne_of_isQuote hquote (by decide)).symm
  have hlines {inside : List Char} (h : IsContent quote inside) :
      lines (before ++ quote :: (inside ++ quote :: after)) =
        above ++ (front ++ quote :: (inside ++ quote :: back)) :: below := by
    have hline : '\n' ∉ front ++ quote :: (inside ++ [quote]) := by
      simp [hfront, hfeed, h.feed_not_mem]
    rw [habove]
    simpa using congrArg (above ++ ·) (hbelow _ hline)
  rw [hzone] at hcode
  obtain ⟨hglance, hheading⟩ := codeOf_literal_congr hquote _ hfront hback hcode hinside hinside'
  have halike : Alike (stateBehind above).inComment (front ++ quote :: (inside ++ quote :: back))
      (front ++ quote :: (inside' ++ quote :: back)) := ⟨hglance, hheading⟩
  rw [symbols, symbols, htext, htext', hlines hinside, hlines hinside']
  exact halike.forall₂_matches

/-- The two contents hold braces, marks of comments and other quotes. -/
theorem symbols_literal_hiding :
    let before := "/* */ class A \x7b\n  m(a) \x7b return ".toList
    let after := "; \x7d\n\x7d\n".toList
    let content := Utf8.encode (before ++ '\x60' :: ("\x7d '//".toList ++ '\x60' :: after))
    let content' := Utf8.encode (before ++ '\x60' :: ("\x7b \"/*".toList ++ '\x60' :: after))
    (symbols content).length = 2 ∧
      List.Forall₂ (Matches (lines (Utf8.decode content)) (lines (Utf8.decode content')))
        (symbols content) (symbols content') := by
  intro before after content content'
  refine ⟨by decide +kernel, symbols_literal content content' '\x60' before
    "\x7d '//".toList "\x7b \"/*".toList after (by decide) (by decide +kernel)
    ⟨by decide, by decide, by decide⟩ ⟨by decide, by decide, by decide⟩ ?_ ?_⟩
  · decide +kernel
  · decide +kernel

/-- A template literal over several lines does not hide its content: a brace in it keeps the
function behind it from being found. In the second file the line of the function begins in a comment
with an apostrophe. The scan for its last line takes the template literal for code and the code for
a literal. -/
theorem symbols_literal_exposing :
    let outline := fun content => (symbols content).map fun s =>
        (s.name, s.kind, s.line, s.endLine, s.parent)
    let lined := fun inside => outline (Utf8.encode
      ("const s = ".toList ++ '\x60' :: (inside ++ '\x60' ::
        ";\nfunction f() \x7b\n\x7d\n".toList)))
    let commented := fun inside => outline (Utf8.encode
      ("/*\nit's */ function f() \x7b return ".toList ++ '\x60' ::
        (inside ++ '\x60' :: " \x7d\nlet x;\n".toList)))
    (zoneBehind .code "const s = ".toList).isCode = true ∧
    lined "\nx\n".toList = [("s", .constant, 1, 1, ""), ("f", .function, 4, 5, "")] ∧
    lined "\n\x7b\n".toList = [("s", .constant, 1, 1, "")] ∧
    (zoneBehind .code "/*\nit's */ function f() \x7b return ".toList).isCode = true ∧
    commented "a".toList = [("f", .function, 2, 2, ""), ("x", .constant, 3, 3, "")] ∧
    commented "'\x7b".toList = [("f", .function, 2, 4, ""), ("x", .constant, 3, 3, "")] := by
  refine ⟨?_, ?_, ?_, ?_, ?_, ?_⟩ <;> decide +kernel

end CodeAtlas.Outline.Braced
