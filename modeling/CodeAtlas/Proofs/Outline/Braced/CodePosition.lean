import CodeAtlas.Proofs.Outline.Braced.Lexer
import CodeAtlas.Proofs.Text.Lines

/-! # Code position

The lexer of the whole text says which braces are in code position. The extractor gets at the same
braces in another way: it trims each line, takes the comments out of it, and counts in what is left.
-/
namespace CodeAtlas.Outline.Braced
open Text

/-- The characters of a text, each with what it belongs to. -/
def zonedFrom : Zone → List Char → List (Char × Zone)
  | _, [] => []
  | z, c :: rest => (c, z) :: zonedFrom (z.next c) rest

/-- How often a character stands in code position. -/
def countCode (c : Char) (zoned : List (Char × Zone)) : Nat :=
  zoned.countP fun p => p.1 = c && p.2.isCode

/-- The braces opened less the braces closed in code position. -/
def openBraces (zoned : List (Char × Zone)) : Int := countCode '{' zoned - countCode '}' zoned

theorem zonedFrom_append (z : Zone) (front rest : List Char) :
    zonedFrom z (front ++ rest) = zonedFrom z front ++ zonedFrom (zoneBehind z front) rest := by
  induction front generalizing z with
  | nil => rfl
  | cons c front ih => simp [zonedFrom, zoneBehind, ih]

@[simp] theorem length_zonedFrom (z : Zone) (text : List Char) :
    (zonedFrom z text).length = text.length := by
  induction text generalizing z with
  | nil => rfl
  | cons c text ih => simp [zonedFrom, ih]

@[simp] theorem openBraces_nil : openBraces [] = 0 := rfl

theorem countCode_cons (c d : Char) (z : Zone) (rest : List (Char × Zone)) :
    countCode c ((d, z) :: rest) = countCode c rest + if d = c ∧ z.isCode then 1 else 0 := by
  simp [countCode, List.countP_cons]

theorem openBraces_cons (c : Char) (z : Zone) (rest : List (Char × Zone)) :
    openBraces ((c, z) :: rest) = (if z.isCode then braceWeight c else 0) + openBraces rest := by
  simp only [openBraces, countCode_cons, braceWeight]
  by_cases hz : z.isCode = true
  · by_cases hopen : c = '{'
    · simp only [hz, hopen, and_true, if_true, Char.reduceEq, if_false]
      omega
    · by_cases hclose : c = '}'
      · simp only [hz, hclose, and_true, if_true, Char.reduceEq, if_false]
        omega
      · simp [hz, hopen, hclose]
  · simp [hz]

theorem openBraces_append (front rest : List (Char × Zone)) :
    openBraces (front ++ rest) = openBraces front + openBraces rest := by
  simp only [openBraces, countCode, List.countP_append]
  omega

/-! ## One line -/

/-- What a line comes to: the braces that it opens in code position, and whether it leaves a comment
open. -/
def outcome (z : Zone) (line : List Char) : Int × Bool :=
  (openBraces (zonedFrom z line), (zoneBehind z line).isBlock)

@[simp] theorem outcome_nil (z : Zone) : outcome z [] = (0, z.isBlock) := rfl

theorem outcome_cons (z : Zone) (c : Char) (rest : List Char) :
    outcome z (c :: rest) = ((if z.isCode then braceWeight c else 0) + (outcome (z.next c) rest).1,
      (outcome (z.next c) rest).2) := by
  simp [outcome, zonedFrom, openBraces_cons, zoneBehind]

section Feed
variable {c : Char} {z : Zone} {text : List Char}

theorem feed_not_mem_emit (hc : c ≠ '\n') : '\n' ∉ z.emit c := by
  rcases emit_cases z c with hemit | ⟨d, hemit⟩ | ⟨-, hemit⟩
  · simp [hemit]
  · cases z with
    | star => by_cases hslash : c = '/' <;> simp [Zone.emit, hslash]
    | code => by_cases hslash : c = '/' <;> simp [Zone.emit, hslash, Ne.symm hc]
    | slash => by_cases hmark : c = '/' ∨ c = '*' <;> simp [Zone.emit, hmark, Ne.symm hc]
    | _ => simp [Zone.emit, Ne.symm hc]
  · simp [hemit, Ne.symm hc]

theorem feed_not_mem_remains (h : '\n' ∉ text) : '\n' ∉ (remains z text).1 := by
  induction text generalizing z with
  | nil => cases z <;> simp [remains, emitted, Zone.held]
  | cons c text ih =>
    simp only [List.mem_cons, not_or] at h
    rw [remains_cons, List.mem_append, not_or]
    exact ⟨feed_not_mem_emit (Ne.symm h.1), ih h.2⟩

end Feed

/-- What is written when a character is read has its braces. -/
theorem openBraces_emit (z : Zone) (c : Char) :
    openBraces (zonedFrom z.visible (z.emit c)) = if z.isCode then braceWeight c else 0 := by
  cases z with
  | code =>
    by_cases hc : c = '/'
    · subst hc
      rfl
    · simp [Zone.emit, hc, zonedFrom, openBraces_cons, Zone.visible, Zone.isCode]
  | slash =>
    by_cases hmark : c = '/' ∨ c = '*'
    · rcases hmark with rfl | rfl <;> rfl
    · have hslash : Zone.next .code '/' = .slash := rfl
      have hweight : braceWeight '/' = 0 := rfl
      simp [Zone.emit, hmark, zonedFrom, openBraces_cons, Zone.visible,
        Zone.isCode, hslash, hweight]
  | literal q => simp [Zone.emit, zonedFrom, openBraces_cons, Zone.visible, Zone.isCode]
  | escape quote => simp [Zone.emit, zonedFrom, openBraces_cons, Zone.visible, Zone.isCode]
  | lineComment => rfl
  | blockComment => rfl
  | star =>
    by_cases hc : c = '/'
    · subst hc
      rfl
    · simp [Zone.emit, hc, zonedFrom, Zone.isCode]

/-- What is left of a line has the braces of the line. -/
theorem openBraces_remains {z : Zone} {line : List Char} (h : '\n' ∉ line) :
    openBraces (zonedFrom z.visible (remains z line).1) = openBraces (zonedFrom z line) := by
  induction line generalizing z with
  | nil => cases z <;> rfl
  | cons c line ih =>
    simp only [List.mem_cons, not_or] at h
    have hc : c ≠ '\n' := Ne.symm h.1
    have hbehind : zoneBehind z.visible (z.emit c) = (z.next c).visible := by
      rw [← zoneOnLine_eq_zoneBehind _ (feed_not_mem_emit hc), zoneOnLine_emit,
        Zone.onLine_of_ne z hc]
    rw [remains_cons, zonedFrom_append, openBraces_append, openBraces_emit, hbehind,
      Zone.onLine_of_ne z hc, ih h.2, zonedFrom, openBraces_cons]

theorem balanceFrom_code {c : Char} (hc : c ≠ '\\') (rest : List Char) :
    balanceFrom none (c :: rest) = braceWeight c + balanceFrom (nextQuote none c) rest := by
  simp [balanceFrom, hc]

theorem balanceFrom_literal {c : Char} (hc : c ≠ '\\') (q : Char) (rest : List Char) :
    balanceFrom (some q) (c :: rest) = balanceFrom (nextQuote (some q) c) rest := by
  simp [balanceFrom, hc]

/-- The lexer is in the literal that is open if there is one, and else in code. -/
def IsAt (quote : Option Char) (z : Zone) : Prop := z = zoneOf quote ∨ quote = none ∧ z = .slash

section Step
variable {quote : Option Char} {z : Zone} {c : Char}

theorem IsAt.isCode_eq (h : IsAt quote z) : z.isCode = quote.isNone := by
  rcases h with rfl | ⟨rfl, rfl⟩
  · cases quote <;> rfl
  · rfl

theorem IsAt.next_escape (h : IsAt quote z) : z.next '\\' = .escape quote := by
  rcases h with rfl | ⟨rfl, rfl⟩
  · cases quote <;> rfl
  · rfl

theorem next_escape (quote : Option Char) (hc : c ≠ '\n') :
    (Zone.escape quote).next c = zoneOf quote := by
  rw [← Zone.onLine_of_ne _ hc, Zone.onLine_escape]

/-- A character that is no backslash and opens no comment. -/
theorem IsAt.next (h : IsAt quote z) (hfeed : c ≠ '\n') (hescape : c ≠ '\\')
    (hclean : (z.next c).isComment = false) : IsAt (nextQuote quote c) (z.next c) := by
  have hbehind : IsAt (nextQuote none c) (Zone.behindCode c) := by
    by_cases hc : c = '/'
    · subst hc
      exact .inr ⟨rfl, rfl⟩
    · exact .inl (behindCode_eq_zoneOf hescape hc)
  rcases h with rfl | ⟨rfl, rfl⟩
  · cases quote with
    | none => simpa [zoneOf, Zone.next, hfeed] using hbehind
    | some q =>
      by_cases hc : c = q
      · subst hc
        exact .inl (by simp [zoneOf, Zone.next, hfeed, hescape, nextQuote])
      · exact .inl (by simp [zoneOf, Zone.next, hfeed, hescape, hc, nextQuote])
  · by_cases hslash : c = '/'
    · subst hslash
      cases hclean
    · by_cases hstar : c = '*'
      · subst hstar
        cases hclean
      · simpa [Zone.next, hfeed, hslash, hstar] using hbehind

end Step

/-- In a line without comments the scan counts the braces in code position. -/
theorem balanceFrom_eq_openBraces {quote : Option Char} {z : Zone} {line : List Char}
    (hz : IsAt quote z) (hfeed : '\n' ∉ line)
    (hclean : ∀ front, front <+: line → (zoneBehind z front).isComment = false) :
    balanceFrom quote line = openBraces (zonedFrom z line) := by
  have hrest {c : Char} {rest front : List Char} (hfront : front <+: rest) :
      c :: front <+: c :: rest := List.cons_prefix_cons.mpr ⟨rfl, hfront⟩
  fun_induction balanceFrom quote line generalizing z with
  | case1 => rfl
  | case2 quote c rest ih =>
    simp only [List.mem_cons, not_or] at hfeed
    have hnext := next_escape quote (Ne.symm hfeed.2.1)
    rw [ih (z := zoneOf quote) (.inl rfl) hfeed.2.2 fun front hfront => ?_]
    · rw [zonedFrom, zonedFrom, openBraces_cons, openBraces_cons, hz.next_escape, hnext]
      simp [braceWeight, Zone.isCode]
    · have hline := hclean _ (hrest (hrest hfront))
      rwa [zoneBehind_cons, zoneBehind_cons, hz.next_escape, hnext] at hline
  | case3 c rest hescape ih =>
    simp only [List.mem_cons, not_or] at hfeed
    by_cases hc : c = '\\'
    · cases rest with
      | nil => simp [hc, zonedFrom, openBraces_cons, braceWeight, balanceFrom]
      | cons d rest => exact (hescape d rest hc rfl).elim
    · have hnext := hz.next (Ne.symm hfeed.1) hc (hclean [c] (by simp))
      rw [zonedFrom, openBraces_cons, hz.isCode_eq,
        ← ih hnext hfeed.2 fun front hfront => hclean _ (hrest hfront)]
      rfl
  | case4 q c rest hescape ih =>
    simp only [List.mem_cons, not_or] at hfeed
    by_cases hc : c = '\\'
    · cases rest with
      | nil => simp [hc, zonedFrom, openBraces_cons, braceWeight, balanceFrom]
      | cons d rest => exact (hescape d rest hc rfl).elim
    · have hnext := hz.next (Ne.symm hfeed.1) hc (hclean [c] (by simp))
      rw [zonedFrom, openBraces_cons, hz.isCode_eq,
        ← ih hnext hfeed.2 fun front hfront => hclean _ (hrest hfront)]
      simp

/-- Taking the comments out and then counting comes to the same as counting in code position. -/
theorem strip_outcome (inComment : Bool) {line : List Char} (h : '\n' ∉ line) :
    let stripped := stripFrom (if inComment then .comment else .code none) line
    (braceBalance stripped.1, stripped.2) = outcome (startZone inComment) line := by
  intro stripped
  have hfeed : '\n' ∉ (remains (startZone inComment) line).1 := feed_not_mem_remains h
  have hclean (front : List Char) (hfront : front <+: (remains (startZone inComment) line).1) :
      (zoneBehind .code front).isComment = false := by
    have hwritten := isComment_remains hfront
    rwa [visible_startZone, zoneOnLine_eq_zoneBehind _ fun hmem => hfeed (hfront.subset hmem)]
      at hwritten
  have hstart : IsAt none .code := .inl rfl
  have hbalance := balanceFrom_eq_openBraces hstart hfeed hclean
  have hbraces := openBraces_remains (z := startZone inComment) h
  rw [visible_startZone] at hbraces
  simp only [stripped, strip_eq_remains]
  rw [braceBalance, hbalance, hbraces, remains, zoneOnLine_eq_zoneBehind _ h]
  rfl

/-! ## White space -/

section Blank
variable {c : Char} {gap : List Char}

theorem ne_of_isBlank {d : Char} (hc : isBlank c = true) (hd : isBlank d = false) : c ≠ d := by
  rintro rfl
  simp [hc] at hd

theorem braceWeight_of_isBlank (hc : isBlank c = true) : braceWeight c = 0 := by
  have hopen : c ≠ '{' := ne_of_isBlank hc (by decide)
  have hclose : c ≠ '}' := ne_of_isBlank hc (by decide)
  simp [braceWeight, hopen, hclose]

theorem isQuote_of_isBlank (hc : isBlank c = true) : isQuote c = false := by
  have hsingle : c ≠ '\'' := ne_of_isBlank hc (by decide)
  have hdouble : c ≠ '"' := ne_of_isBlank hc (by decide)
  have hback : c ≠ '\x60' := ne_of_isBlank hc (by decide)
  simp [isQuote, hsingle, hdouble, hback]

theorem balanceFrom_gap (quote : Option Char) (h : ∀ c ∈ gap, isBlank c = true) :
    balanceFrom quote gap = 0 := by
  induction gap generalizing quote with
  | nil => cases quote <;> rfl
  | cons c gap ih =>
    obtain ⟨hc, hgap⟩ := List.forall_mem_cons.mp h
    have hescape : c ≠ '\\' := ne_of_isBlank hc (by decide)
    cases quote with
    | none => rw [balanceFrom_code hescape, ih _ hgap, braceWeight_of_isBlank hc, Int.add_zero]
    | some q => rw [balanceFrom_literal hescape, ih _ hgap]

theorem balanceFrom_gap_append (code : List Char) (h : ∀ c ∈ gap, isBlank c = true) :
    balanceFrom none (gap ++ code) = balanceFrom none code := by
  induction gap with
  | nil => rfl
  | cons c gap ih =>
    obtain ⟨hc, hgap⟩ := List.forall_mem_cons.mp h
    have hescape : c ≠ '\\' := ne_of_isBlank hc (by decide)
    simp [balanceFrom_code hescape, braceWeight_of_isBlank hc, nextQuote,
      isQuote_of_isBlank hc, ih hgap]

/-- A backslash at the end escapes the first blank, which counts for nothing anyway. -/
theorem balanceFrom_backslash_gap (quote : Option Char) (h : ∀ c ∈ gap, isBlank c = true) :
    balanceFrom quote ('\\' :: gap) = 0 := by
  cases gap with
  | nil => cases quote <;> rfl
  | cons c gap =>
    have hgap := balanceFrom_gap quote fun d hd => h d (List.mem_cons_of_mem c hd)
    cases quote <;> simpa [balanceFrom] using hgap

theorem balanceFrom_append_gap (quote : Option Char) (code : List Char)
    (h : ∀ c ∈ gap, isBlank c = true) :
    balanceFrom quote (code ++ gap) = balanceFrom quote code := by
  fun_induction balanceFrom quote code with
  | case1 quote => exact balanceFrom_gap quote h
  | case2 quote c rest ih => cases quote <;> simpa [balanceFrom] using ih
  | case3 c rest hescape ih =>
    by_cases hc : c = '\\'
    · cases rest with
      | nil =>
        subst hc
        exact balanceFrom_backslash_gap none h
      | cons d rest => exact (hescape d rest hc rfl).elim
    · rw [List.cons_append, balanceFrom_code hc, ih]
  | case4 q c rest hescape ih =>
    by_cases hc : c = '\\'
    · cases rest with
      | nil =>
        subst hc
        simpa [balanceFrom] using balanceFrom_backslash_gap (some q) h
      | cons d rest => exact (hescape d rest hc rfl).elim
    · rw [List.cons_append, balanceFrom_literal hc, ih]

theorem braceBalance_trim (code : List Char) : braceBalance (trim code) = braceBalance code := by
  obtain ⟨before, after, hbefore, hafter, hcode⟩ := exists_trim code
  calc braceBalance (trim code)
      = braceBalance (trim code ++ after) := (balanceFrom_append_gap none _ hafter).symm
    _ = braceBalance (before ++ (trim code ++ after)) := (balanceFrom_gap_append _ hbefore).symm
    _ = braceBalance code := by rw [← hcode]

theorem next_of_isBlank {z : Zone} (hz : z = .code ∨ z = .blockComment) (hc : isBlank c = true) :
    z.next c = z := by
  have hescape : c ≠ '\\' := ne_of_isBlank hc (by decide)
  have hslash : c ≠ '/' := ne_of_isBlank hc (by decide)
  have hstar : c ≠ '*' := ne_of_isBlank hc (by decide)
  rcases hz with rfl | rfl
  · simp [Zone.next, Zone.behindCode, Zone.isBlock, isQuote_of_isBlank hc, hescape, hslash]
  · simp [Zone.next, Zone.isBlock, hstar]

theorem isBlock_next_of_isBlank (z : Zone) (hc : isBlank c = true) :
    (z.next c).isBlock = z.isBlock := by
  have hescape : c ≠ '\\' := ne_of_isBlank hc (by decide)
  have hslash : c ≠ '/' := ne_of_isBlank hc (by decide)
  have hstar : c ≠ '*' := ne_of_isBlank hc (by decide)
  by_cases hfeed : c = '\n'
  · cases z <;> simp [Zone.next, Zone.isBlock, hfeed]
  · cases z with
    | code => rw [next_of_isBlank (Or.inl rfl) hc]
    | slash =>
      simp [Zone.next, Zone.behindCode, Zone.isBlock, hfeed, isQuote_of_isBlank hc,
        hescape, hslash, hstar]
    | literal q =>
      by_cases hq : c = q
      · subst hq
        simp [Zone.next, Zone.isBlock, hfeed, hescape]
      · simp [Zone.next, Zone.isBlock, hfeed, hescape, hq]
    | escape quote => cases quote <;> simp [Zone.next, Zone.isBlock, hfeed]
    | lineComment => simp [Zone.next, Zone.isBlock, hfeed]
    | blockComment => rw [next_of_isBlank (Or.inr rfl) hc]
    | star => simp [Zone.next, Zone.isBlock, hfeed, hslash, hstar]

theorem outcome_gap_append {z : Zone} (hz : z = .code ∨ z = .blockComment) (line : List Char)
    (h : ∀ c ∈ gap, isBlank c = true) : outcome z (gap ++ line) = outcome z line := by
  induction gap with
  | nil => rfl
  | cons c gap ih =>
    obtain ⟨hc, hgap⟩ := List.forall_mem_cons.mp h
    simp [outcome_cons, next_of_isBlank hz hc, braceWeight_of_isBlank hc, ih hgap]

theorem outcome_append_gap (z : Zone) (line : List Char) (h : ∀ c ∈ gap, isBlank c = true) :
    outcome z (line ++ gap) = outcome z line := by
  induction line generalizing z with
  | cons d line ih => simp [outcome_cons, ih]
  | nil =>
    induction gap generalizing z with
    | nil => rfl
    | cons c gap ih =>
      obtain ⟨hc, hgap⟩ := List.forall_mem_cons.mp h
      have hrest : outcome (z.next c) gap = (0, z.isBlock) := by
        simpa [isBlock_next_of_isBlank z hc] using ih hgap (z.next c)
      simp [outcome_cons, hrest, braceWeight_of_isBlank hc]

theorem outcome_trim {z : Zone} (hz : z = .code ∨ z = .blockComment) (line : List Char) :
    outcome z (trim line) = outcome z line := by
  obtain ⟨before, after, hbefore, hafter, hline⟩ := exists_trim line
  calc outcome z (trim line)
      = outcome z (trim line ++ after) := (outcome_append_gap z _ hafter).symm
    _ = outcome z (before ++ (trim line ++ after)) := (outcome_gap_append hz _ hbefore).symm
    _ = outcome z line := by rw [← hline]

theorem mem_of_mem_trim {line : List Char} (h : c ∈ trim line) : c ∈ line := by
  obtain ⟨before, after, -, -, hline⟩ := exists_trim line
  rw [hline]
  exact List.mem_append_right before (List.mem_append_left after h)

end Blank

/-- The code of a line has the braces that are in code position on the line. -/
theorem codeOf_outcome (inComment : Bool) {raw : List Char} (h : '\n' ∉ raw) :
    (braceBalance (codeOf inComment raw).1, (codeOf inComment raw).2) =
      outcome (startZone inComment) raw := by
  have htrim : '\n' ∉ trim raw := fun hmem => h (mem_of_mem_trim hmem)
  have hstart : startZone inComment = .code ∨ startZone inComment = .blockComment := by
    cases inComment <;> simp [startZone]
  rw [← outcome_trim hstart, codeOf, braceBalance_trim]
  exact strip_outcome inComment htrim

/-! ## Many lines -/

theorem outcome_append_feed (z : Zone) (line rest : List Char) :
    outcome z (line ++ '\n' :: rest) =
      ((outcome z line).1 + (outcome (startZone (outcome z line).2) rest).1,
      (outcome (startZone (outcome z line).2) rest).2) := by
  induction line generalizing z with
  | nil =>
    have hnext : z.next '\n' = startZone z.isBlock := by simp [Zone.next, startZone]
    simp [outcome_cons, hnext, braceWeight]
  | cons c line ih => simp [outcome_cons, ih, Int.add_assoc]

/-- The depth and the open comment behind some lines are those of the machine behind their text. -/
theorem stateFrom_outcome (st : State) (line : Nat) {front : List (List Char)}
    (h : ∀ raw ∈ front, '\n' ∉ raw) :
    ((stateFrom st line front).depth, (stateFrom st line front).inComment) =
      (st.depth + (outcome (startZone st.inComment) (['\n'].intercalate front)).1,
        (outcome (startZone st.inComment) (['\n'].intercalate front)).2) := by
  induction front generalizing st line with
  | nil => simp
  | cons raw front ih =>
    obtain ⟨hraw, hfront⟩ := List.forall_mem_cons.mp h
    have hcode := codeOf_outcome st.inComment hraw
    rw [stateFrom_cons, ih _ _ hfront, read_depth, read_inComment]
    cases front with
    | nil => simp [← hcode]
    | cons next front =>
      rw [List.intercalate_cons_cons, List.append_assoc, List.singleton_append,
        outcome_append_feed, ← hcode]
      simp [Int.add_assoc]

/-- The depth is the number of braces opened less those closed in code position, and a comment is
open in the one if it is in the other; this is so behind any number of lines and whatever they
declare. The class whose body is open was declared at depth zero, which is below the depth. -/
theorem state_eq_lexed (content : List UInt8) (k : Nat) :
    let text := Utf8.decode content
    let front := (lines text).take k
    let read := ['\n'].intercalate front
    let zoned := (zonedFrom .code text).take read.length
    let st := stateBehind front
    (read <+: text ∧ ∃ found, symbols content =
      found ++ symbolsFrom (lines text).length st (1 + front.length) ((lines text).drop k)) ∧
    st.depth = countCode '{' zoned - countCode '}' zoned ∧
    st.inComment = (zoneBehind .code read).isBlock ∧
    (st.openClass ≠ none → st.openClassDepth < st.depth) ∧ st.openClassDepth = 0 := by
  intro text front read zoned st
  have hlines : ∀ raw ∈ front, '\n' ∉ raw :=
    fun raw hraw => not_mem_of_mem_splitOn (List.mem_of_mem_take hraw)
  have hread : read <+: text := by
    have hprefix := intercalate_take ['\n'] (lines text) k
    rwa [lines, intercalate_splitOn] at hprefix
  have hzoned : zoned = zonedFrom .code read := by
    obtain ⟨rest, hrest⟩ := hread
    simp only [zoned, ← hrest, zonedFrom_append, List.take_left' (length_zonedFrom _ _)]
  have hnested : Nested st := nested_stateBehind front
  have houtcome : (st.depth, st.inComment) =
      (0 + openBraces (zonedFrom .code read), (zoneBehind .code read).isBlock) :=
      stateFrom_outcome {} 1 hlines
  obtain ⟨hdepth, hcomment⟩ := Prod.mk.inj houtcome
  refine ⟨⟨hread, ?_⟩, ?_, hcomment, ?_, hnested.openClassDepth_eq⟩
  · have hsymbols := exists_symbolsFrom_append (lines text).length {} 1 front ((lines text).drop k)
    rwa [List.take_append_drop] at hsymbols
  · rw [hdepth, hzoned, Int.zero_add, openBraces]
  · rw [hnested.openClassDepth_eq]
    exact hnested.depth_pos

/-- Braces in a literal, behind a backslash and in comments do not count. Two are left. -/
theorem state_eq_lexed_hidden :
    let content :=
      Utf8.encode "class A \x7b // \x7b\n  m = '\x7b' + \\\x7b /* \x7b\n  \x7d */ f() \x7b\n".toList
    let st := stateBehind ((lines (Utf8.decode content)).take 3)
    st.openClass = some "A" ∧ st.openClassDepth < st.depth ∧ st.depth = 2 ∧
      st.inComment = false := by
  intro content st
  obtain ⟨-, hdepth, hcomment, hopen, -⟩ := state_eq_lexed content 3
  have hclass : st.openClass = some "A" := by decide +kernel
  refine ⟨hclass, hopen (by rw [hclass]; exact Option.some_ne_none "A"), hdepth.trans ?_,
    hcomment.trans ?_⟩
  · decide +kernel
  · decide +kernel

end CodeAtlas.Outline.Braced
