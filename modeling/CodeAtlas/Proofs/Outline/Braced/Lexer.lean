import CodeAtlas.Proofs.Outline.Braced.Run
import Mathlib.Data.List.Infix
import Mathlib.Tactic.SplitIfs

/-! # A lexer for code, literals and comments

Which characters of a text are code is said by one machine that reads the whole text, character by
character. It knows nothing of lines but the line feed: a literal ends there, and so does a comment
behind two slashes.

To take the comments out of a line is the work of a machine that goes from zone to zone as the lexer
does and writes as it goes. It holds a slash back until the next character tells whether a comment
begins there. A lexer that reads what the machine writes stays in step with it: it is in the same
literal, and in code where the machine is in a comment.
-/
namespace CodeAtlas.Outline.Braced
open Text

/-- What a character belongs to, as far as the text in front of it tells. -/
inductive Zone where
  | code
  /-- Code, right behind a slash that may open a comment. -/
  | slash
  /-- The literal that the given character opened. -/
  | literal (quote : Char)
  /-- Code or a literal, right behind a backslash. -/
  | escape (quote : Option Char)
  | lineComment
  | blockComment
  /-- A block comment, right behind a star that may close it. -/
  | star
  deriving DecidableEq, Repr

/-- The zone of code, or of the literal that is open. -/
def zoneOf : Option Char → Zone
  | none => .code
  | some q => .literal q

/-- The zone in which the next character stands. -/
def Mode.zone : Mode → Zone
  | .code quote => zoneOf quote
  | .comment => .blockComment

def Mode.quote : Mode → Option Char
  | .code quote => quote
  | .comment => none

namespace Zone

/-- Whether a character there is in code position. -/
def isCode : Zone → Bool
  | code | slash => true
  | _ => false

def isBlock : Zone → Bool
  | blockComment | star => true
  | _ => false

def isComment : Zone → Bool
  | lineComment | blockComment | star => true
  | _ => false

def isLiteral : Zone → Bool
  | literal _ | escape (some _) => true
  | _ => false

theorem isComment_of_isCode {z : Zone} (h : z.isCode = true) : z.isComment = false := by
  cases z <;> trivial

theorem isComment_of_isLiteral {z : Zone} (h : z.isLiteral = true) : z.isComment = false := by
  cases z <;> trivial

theorem isBlock_of_isComment {z : Zone} (h : z.isComment = false) : z.isBlock = false := by
  cases z <;> trivial

/-- What is behind a character of code that opens no comment. -/
def behindCode (c : Char) : Zone :=
  if c = '\\' then escape none
  else if isQuote c then literal c
  else if c = '/' then slash
  else code

def next (z : Zone) (c : Char) : Zone :=
  if c = '\n' then if z.isBlock then blockComment else code
  else match z with
    | code => behindCode c
    | slash => if c = '/' then lineComment else if c = '*' then blockComment else behindCode c
    | literal quote =>
      if c = '\\' then escape (some quote) else if c = quote then code else literal quote
    | escape none => code
    | escape (some quote) => literal quote
    | lineComment => lineComment
    | blockComment => if c = '*' then star else blockComment
    | star => if c = '/' then code else if c = '*' then star else blockComment

end Zone

def zoneBehind (z : Zone) (text : List Char) : Zone := text.foldl Zone.next z

@[simp] theorem zoneBehind_nil (z : Zone) : zoneBehind z [] = z := rfl

@[simp] theorem zoneBehind_cons (z : Zone) (c : Char) (rest : List Char) :
    zoneBehind z (c :: rest) = zoneBehind (z.next c) rest := rfl

@[simp] theorem zoneBehind_append (z : Zone) (front rest : List Char) :
    zoneBehind z (front ++ rest) = zoneBehind (zoneBehind z front) rest := List.foldl_append

/-! ## The lexer on one line -/

theorem ne_of_isQuote {quote c : Char} (hquote : isQuote quote = true) (hc : isQuote c = false) :
    quote ≠ c := by
  rintro rfl
  simp [hc] at hquote

namespace Zone

/-- What is behind a character of a text that is one line as a whole. A line feed in it is white
space like any other. -/
def onLine (z : Zone) (c : Char) : Zone := z.next (if c = '\n' then ' ' else c)

theorem onLine_of_ne (z : Zone) {c : Char} (hc : c ≠ '\n') : z.onLine c = z.next c := by
  rw [onLine, if_neg hc]

/-- What the lexer does on other characters it does on one line, if it would not tell a line feed
from a space. -/
theorem onLine_eq {z : Zone} {f : Char → Zone} (h : ∀ c, c ≠ '\n' → z.next c = f c)
    (hfeed : f '\n' = f ' ') (c : Char) : z.onLine c = f c := by
  by_cases hc : c = '\n'
  · rw [hc, hfeed]
    exact h ' ' (by decide)
  · rw [onLine_of_ne z hc, h c hc]

theorem onLine_code (c : Char) : onLine .code c = behindCode c :=
  onLine_eq (fun c hc => by simp [next, hc]) (by decide) c

theorem onLine_slash {c : Char} (hslash : c ≠ '/') (hstar : c ≠ '*') :
    onLine .slash c = behindCode c := by
  have hnext := onLine_eq (z := .slash) (f := fun c => if c = '/' then .lineComment
    else if c = '*' then .blockComment else behindCode c) (fun c hc => by simp [next, hc])
    (by decide) c
  rw [hnext, if_neg hslash, if_neg hstar]

theorem onLine_literal {q : Char} (hq : isQuote q = true) {c : Char} (hescape : c ≠ '\\') :
    onLine (.literal q) c = zoneOf (nextQuote (some q) c) := by
  have hspace : ' ' ≠ q := (ne_of_isQuote hq (by decide)).symm
  have hfeed : '\n' ≠ q := (ne_of_isQuote hq (by decide)).symm
  have hnext := onLine_eq (z := .literal q) (f := fun c => if c = '\\' then .escape (some q)
    else if c = q then .code else .literal q) (fun c hc => by simp [next, hc])
    (by simp [hspace, hfeed]) c
  rw [hnext, if_neg hescape, nextQuote, apply_ite zoneOf]
  rfl

theorem onLine_escape (quote : Option Char) (c : Char) :
    onLine (.escape quote) c = zoneOf quote :=
  onLine_eq (f := fun _ => zoneOf quote)
    (fun c hc => by cases quote <;> simp [next, zoneOf, hc]) rfl c

theorem onLine_lineComment (c : Char) : onLine .lineComment c = .lineComment :=
  onLine_eq (f := fun _ => .lineComment) (fun c hc => by simp [next, hc]) rfl c

theorem onLine_blockComment (c : Char) :
    onLine .blockComment c = if c = '*' then .star else .blockComment :=
  onLine_eq (f := fun c => if c = '*' then .star else .blockComment)
    (fun c hc => by simp [next, hc]) rfl c

theorem onLine_star {c : Char} (hslash : c ≠ '/') : onLine .star c = onLine .blockComment c := by
  have hnext := onLine_eq (z := .star) (f := fun c => if c = '/' then .code
    else if c = '*' then .star else .blockComment) (fun c hc => by simp [next, hc]) rfl c
  rw [hnext, if_neg hslash, onLine_blockComment]

/-- A literal is closed by a character, or it stays open. -/
theorem onLine_of_isLiteral {z : Zone} (h : z.isLiteral = true) (c : Char) :
    z.onLine c = .code ∨ (z.onLine c).isLiteral = true := by
  have hfeed : (if c = '\n' then ' ' else c) ≠ '\n' := by
    split
    · decide
    · assumption
  cases z with
  | literal q =>
    rw [onLine, next, if_neg hfeed]
    generalize (if c = '\n' then ' ' else c) = d
    split_ifs <;> simp [isLiteral]
  | escape quote =>
    cases quote with
    | none => cases h
    | some q => simp [onLine_escape, zoneOf, isLiteral]
  | _ => cases h

/-- A quote in code position opens a literal. -/
theorem onLine_quote {z : Zone} (hz : z.isCode = true) {q : Char} (hq : isQuote q = true) :
    z.onLine q = .literal q := by
  have hescape : q ≠ '\\' := ne_of_isQuote hq (by decide)
  have hslash : q ≠ '/' := ne_of_isQuote hq (by decide)
  have hstar : q ≠ '*' := ne_of_isQuote hq (by decide)
  have hopen : behindCode q = .literal q := by rw [behindCode, if_neg hescape, if_pos hq]
  cases z with
  | code => rw [onLine_code, hopen]
  | slash => rw [onLine_slash hslash hstar, hopen]
  | _ => cases hz

end Zone

/-- What is behind a text that is one line as a whole. -/
def zoneOnLine (z : Zone) (text : List Char) : Zone := text.foldl Zone.onLine z

@[simp] theorem zoneOnLine_nil (z : Zone) : zoneOnLine z [] = z := rfl

@[simp] theorem zoneOnLine_cons (z : Zone) (c : Char) (rest : List Char) :
    zoneOnLine z (c :: rest) = zoneOnLine (z.onLine c) rest := rfl

@[simp] theorem zoneOnLine_append (z : Zone) (front rest : List Char) :
    zoneOnLine z (front ++ rest) = zoneOnLine (zoneOnLine z front) rest := List.foldl_append

/-- On a line without a line feed, this is the lexer of the whole text. -/
theorem zoneOnLine_eq_zoneBehind (z : Zone) {line : List Char} (h : '\n' ∉ line) :
    zoneOnLine z line = zoneBehind z line := by
  induction line generalizing z with
  | nil => rfl
  | cons c line ih =>
    simp only [List.mem_cons, not_or] at h
    rw [zoneOnLine_cons, zoneBehind_cons, Zone.onLine_of_ne z (Ne.symm h.1), ih _ h.2]

/-! ## The machine that takes comments out -/

namespace Zone

/-- What is written when a character is read: code and literals as they are, but for a slash, which
is held back, and a space where a block comment ends. -/
def emit : Zone → Char → List Char
  | code, c => if c = '/' then [] else [c]
  | slash, c => if c = '/' ∨ c = '*' then [] else ['/', c]
  | literal _, c | escape _, c => [c]
  | lineComment, _ | blockComment, _ => []
  | star, c => if c = '/' then [' '] else []

def held : Zone → List Char
  | slash => ['/']
  | _ => []

/-- Where a lexer is that has read what is written so far. -/
def visible : Zone → Zone
  | literal q => literal q
  | escape quote => escape quote
  | _ => code

theorem held_of_isLiteral {z : Zone} (h : z.isLiteral = true) : z.held = [] := by
  cases z <;> trivial

theorem visible_of_isLiteral {z : Zone} (h : z.isLiteral = true) : z.visible = z := by
  cases z <;> trivial

@[simp] theorem held_visible (z : Zone) : z.visible.held = [] := by cases z <;> rfl

@[simp] theorem isComment_visible (z : Zone) : z.visible.isComment = false := by cases z <;> rfl

theorem visible_behindCode {c : Char} (hc : c ≠ '/') : (behindCode c).visible = behindCode c := by
  unfold behindCode
  rw [if_neg hc]
  split_ifs <;> rfl

theorem held_behindCode {c : Char} (hc : c ≠ '/') : (behindCode c).held = [] := by
  rw [← visible_behindCode hc, held_visible]

theorem visible_onLine_literal (q c : Char) :
    (onLine (.literal q) c).visible = onLine (.literal q) c := by
  rcases onLine_of_isLiteral (z := .literal q) rfl c with hclosed | hopen
  · rw [hclosed]
    rfl
  · exact visible_of_isLiteral hopen

theorem visible_onLine_blockComment (c : Char) : (onLine .blockComment c).visible = .code := by
  rw [onLine_blockComment]
  split_ifs <;> rfl

end Zone

def emitted : Zone → List Char → List Char
  | _, [] => []
  | z, c :: rest => z.emit c ++ emitted (z.onLine c) rest

theorem emitted_append (z : Zone) (front rest : List Char) :
    emitted z (front ++ rest) = emitted z front ++ emitted (zoneOnLine z front) rest := by
  induction front generalizing z with
  | nil => rfl
  | cons c front ih => simp [emitted, ih]

/-- What is left of a text, and whether a block comment is open behind it. -/
def remains (z : Zone) (text : List Char) : List Char × Bool :=
  (emitted z text ++ (zoneOnLine z text).held, (zoneOnLine z text).isBlock)

theorem remains_cons (z : Zone) (c : Char) (rest : List Char) :
    remains z (c :: rest) =
      (z.emit c ++ (remains (z.onLine c) rest).1, (remains (z.onLine c) rest).2) := by
  simp [remains, emitted]

theorem remains_append (z : Zone) (front rest : List Char) :
    remains z (front ++ rest) = (emitted z front ++ (remains (zoneOnLine z front) rest).1,
      (remains (zoneOnLine z front) rest).2) := by
  simp [remains, emitted_append]

/-! What the machine leaves of one or two characters, as the scan of a line takes them. -/

section Steps
variable {c : Char} {rest : List Char}

/-- A slash that is held back is written if neither a slash nor a star stands behind it. -/
theorem remains_slash (hslash : rest.head? ≠ some '/') (hstar : rest.head? ≠ some '*') :
    remains .slash rest = ('/' :: (remains .code rest).1, (remains .code rest).2) := by
  cases rest with
  | nil => rfl
  | cons c rest =>
    have hslash : c ≠ '/' := by simpa using hslash
    have hstar : c ≠ '*' := by simpa using hstar
    simp [remains_cons, Zone.emit, hslash, hstar, Zone.onLine_slash, Zone.onLine_code]

theorem remains_lineComment (rest : List Char) : remains .lineComment rest = ([], false) := by
  induction rest with
  | nil => rfl
  | cons c rest ih =>
    rw [remains_cons, Zone.onLine_lineComment, ih]
    rfl

theorem remains_open (rest : List Char) :
    remains .code ('/' :: '*' :: rest) = remains .blockComment rest := rfl

theorem remains_close (rest : List Char) : remains .blockComment ('*' :: '/' :: rest) =
    (' ' :: (remains .code rest).1, (remains .code rest).2) := rfl

/-- A star in a comment means nothing if no slash stands behind it. -/
theorem remains_comment (h : c = '*' → rest.head? ≠ some '/') :
    remains .blockComment (c :: rest) = remains .blockComment rest := by
  by_cases hc : c = '*'
  · subst hc
    cases rest with
    | nil => rfl
    | cons d rest =>
      have hslash : d ≠ '/' := by simpa using h rfl
      have hstar : Zone.onLine .blockComment '*' = .star := rfl
      rw [remains_cons, hstar]
      simp [remains_cons, Zone.emit, hslash, Zone.onLine_star hslash]
  · simp [remains_cons, Zone.emit, Zone.onLine_blockComment, hc]

theorem remains_escape (quote : Option Char) (c : Char) (rest : List Char) :
    remains (zoneOf quote) ('\\' :: c :: rest) =
      ('\\' :: c :: (remains (zoneOf quote) rest).1, (remains (zoneOf quote) rest).2) := by
  have hescape :
      (zoneOf quote).emit '\\' = ['\\'] ∧ (zoneOf quote).onLine '\\' = .escape quote := by
    cases quote <;> exact ⟨rfl, rfl⟩
  rw [remains_cons, hescape.1, hescape.2, remains_cons, Zone.onLine_escape]
  rfl

theorem behindCode_eq_zoneOf (hescape : c ≠ '\\') (hslash : c ≠ '/') :
    Zone.behindCode c = zoneOf (nextQuote none c) := by
  by_cases hquote : isQuote c = true
  · simp [Zone.behindCode, nextQuote, hescape, hquote, zoneOf]
  · simp [Zone.behindCode, nextQuote, hescape, hquote, hslash, zoneOf]

/-- A character of code that opens no comment. -/
theorem remains_code (hescape : c ≠ '\\')
    (hslash : c = '/' → rest.head? ≠ some '/' ∧ rest.head? ≠ some '*') :
    remains .code (c :: rest) = (c :: (remains (zoneOf (nextQuote none c)) rest).1,
      (remains (zoneOf (nextQuote none c)) rest).2) := by
  by_cases hc : c = '/'
  · subst hc
    obtain ⟨hline, hblock⟩ := hslash rfl
    exact remains_slash hline hblock
  · simp [remains_cons, Zone.emit, hc, Zone.onLine_code, behindCode_eq_zoneOf hescape hc]

theorem remains_literal {q : Char} (hq : isQuote q = true) (hescape : c ≠ '\\')
    (rest : List Char) : remains (.literal q) (c :: rest) =
      (c :: (remains (zoneOf (nextQuote (some q) c)) rest).1,
        (remains (zoneOf (nextQuote (some q) c)) rest).2) := by
  simp [remains_cons, Zone.emit, Zone.onLine_literal hq hescape]

/-- A quote in code position is written behind a slash that was held back. -/
theorem remains_quote {z : Zone} (hz : z.isCode = true) {q : Char} (hq : isQuote q = true)
    (rest : List Char) : remains z (q :: rest) =
      (z.held ++ q :: (remains (.literal q) rest).1, (remains (.literal q) rest).2) := by
  have hslash : q ≠ '/' := ne_of_isQuote hq (by decide)
  have hstar : q ≠ '*' := ne_of_isQuote hq (by decide)
  rw [remains_cons, Zone.onLine_quote hz hq]
  cases z with
  | code => simp [Zone.emit, Zone.held, hslash]
  | slash => simp [Zone.emit, Zone.held, hslash, hstar]
  | _ => cases hz

end Steps

theorem isQuote_of_mem_nextQuote {quote : Option Char} (h : ∀ q ∈ quote, isQuote q = true)
    (c : Char) : ∀ q ∈ nextQuote quote c, isQuote q = true := by
  intro q hq
  cases quote with
  | none =>
    obtain ⟨hc, rfl⟩ : isQuote c = true ∧ c = q := by simpa [nextQuote] using hq
    exact hc
  | some open? =>
    obtain ⟨-, rfl⟩ : c ≠ open? ∧ open? = q := by simpa [nextQuote] using hq
    exact h open? rfl

theorem head?_ne_of_forall {c : Char} {rest : List Char} (h : ∀ behind, rest ≠ c :: behind) :
    rest.head? ≠ some c := by
  intro hhead
  obtain ⟨behind, hrest⟩ := List.head?_eq_some_iff.mp hhead
  exact h behind hrest

/-- The scan of a line and the machine leave the same. -/
theorem stripFrom_eq_remains (mode : Mode) (line : List Char)
    (h : ∀ q ∈ mode.quote, isQuote q = true) : stripFrom mode line = remains mode.zone line := by
  fun_induction stripFrom mode line with
  | case1 => rfl
  | case2 rest code isOpen hcode ih =>
    simp only [Mode.zone, zoneOf, hcode] at ih ⊢
    rw [remains_close, ← ih (by simp [Mode.quote])]
  | case3 c rest hclose ih =>
    have hhead (hc : c = '*') : rest.head? ≠ some '/' :=
      head?_ne_of_forall fun behind => hclose behind hc
    exact (ih h).trans (remains_comment hhead).symm
  | case4 quote => cases quote <;> rfl
  | case5 quote c rest code isOpen hcode ih =>
    simp only [Mode.zone, hcode] at ih ⊢
    rw [remains_escape, ← ih h]
  | case6 rest => exact (remains_lineComment rest).symm
  | case7 rest ih => exact (ih (by simp [Mode.quote])).trans (remains_open rest).symm
  | case8 quote c rest hescape hline hblock code isOpen hcode ih =>
    simp only [Mode.zone, hcode] at ih ⊢
    have hrest := ih (isQuote_of_mem_nextQuote h c)
    by_cases hc : c = '\\'
    · -- a backslash at the end of the line, with nothing behind it to escape
      cases rest with
      | nil =>
        obtain ⟨rfl, rfl⟩ : [] = code ∧ false = isOpen := by simpa [stripFrom] using hcode
        subst hc
        cases quote <;> rfl
      | cons d rest => exact (hescape d rest hc rfl).elim
    · cases quote with
      | none =>
        have hslash (hc : c = '/') : rest.head? ≠ some '/' ∧ rest.head? ≠ some '*' :=
          ⟨head?_ne_of_forall fun behind => hline behind rfl hc,
            head?_ne_of_forall fun behind => hblock behind rfl hc⟩
        rw [zoneOf, remains_code hc hslash, ← hrest]
      | some q => rw [zoneOf, remains_literal (h q rfl) hc, ← hrest]

theorem stripComments_eq_remains (line : List Char) : stripComments line = remains .code line :=
  stripFrom_eq_remains (.code none) line (by simp [Mode.quote])

def startZone (inComment : Bool) : Zone := if inComment then .blockComment else .code

@[simp] theorem isBlock_startZone (inComment : Bool) :
    (startZone inComment).isBlock = inComment := by
  cases inComment <;> rfl

@[simp] theorem visible_startZone (inComment : Bool) : (startZone inComment).visible = .code := by
  cases inComment <;> rfl

/-- What the scan of a line leaves, with or without a comment open in front of it. -/
theorem strip_eq_remains (inComment : Bool) (line : List Char) :
    stripFrom (if inComment then .comment else .code none) line =
      remains (startZone inComment) line := by
  cases inComment with
  | false => exact stripComments_eq_remains line
  | true => exact stripFrom_eq_remains .comment line (by simp [Mode.quote])

/-! ## In step with the lexer -/

/-- The lexer that reads what is written takes its steps with the machine. -/
theorem zoneOnLine_emit (z : Zone) (c : Char) :
    zoneOnLine z.visible (z.emit c) = (z.onLine c).visible := by
  cases z with
  | code =>
    by_cases hc : c = '/'
    · subst hc
      rfl
    · rw [Zone.emit, if_neg hc, Zone.onLine_code, Zone.visible_behindCode hc]
      exact Zone.onLine_code c
  | slash =>
    by_cases hmark : c = '/' ∨ c = '*'
    · rcases hmark with rfl | rfl <;> rfl
    · obtain ⟨hslash, hstar⟩ := not_or.mp hmark
      rw [Zone.emit, if_neg hmark, Zone.onLine_slash hslash hstar, Zone.visible_behindCode hslash]
      exact Zone.onLine_slash hslash hstar
  | literal q => exact (Zone.visible_onLine_literal q c).symm
  | escape quote =>
    have hnext : zoneOnLine (.escape quote) [c] = zoneOf quote := Zone.onLine_escape quote c
    rw [Zone.onLine_escape, Zone.visible, Zone.emit, hnext]
    cases quote <;> rfl
  | lineComment =>
    rw [Zone.onLine_lineComment]
    rfl
  | blockComment => exact (Zone.visible_onLine_blockComment c).symm
  | star =>
    by_cases hc : c = '/'
    · subst hc
      rfl
    · rw [Zone.emit, if_neg hc, Zone.onLine_star hc, Zone.visible_onLine_blockComment]
      rfl

/-- One character is written at most, but for a slash that was held back. -/
theorem emit_cases (z : Zone) (c : Char) :
    z.emit c = [] ∨ (∃ d, z.emit c = [d]) ∨ z = .slash ∧ z.emit c = ['/', c] := by
  cases z with
  | code => by_cases hc : c = '/' <;> simp [Zone.emit, hc]
  | slash => by_cases hmark : c = '/' ∨ c = '*' <;> simp [Zone.emit, hmark]
  | star => by_cases hc : c = '/' <;> simp [Zone.emit, hc]
  | _ => simp [Zone.emit]

/-- Nothing that is written in one step opens a comment. -/
theorem isComment_emit {z : Zone} {c : Char} {front : List Char} (h : front <+: z.emit c) :
    (zoneOnLine z.visible front).isComment = false := by
  have hwhole : (zoneOnLine z.visible (z.emit c)).isComment = false := by
    rw [zoneOnLine_emit, Zone.isComment_visible]
  rcases emit_cases z c with hemit | ⟨d, hemit⟩ | ⟨rfl, hemit⟩
  · rw [hemit, List.prefix_nil] at h
    simp [h]
  · rw [hemit] at h hwhole
    rcases List.prefix_cons_iff.mp h with rfl | ⟨rest, rfl, hrest⟩
    · simp
    · rwa [List.prefix_nil.mp hrest]
  · rw [hemit] at h hwhole
    rcases List.prefix_cons_iff.mp h with rfl | ⟨rest, rfl, hrest⟩
    · simp
    · rcases List.prefix_cons_iff.mp hrest with rfl | ⟨tail, rfl, htail⟩
      · -- behind the slash that was held back, and `c` is no mark of a comment
        rfl
      · rwa [List.prefix_nil.mp htail]

/-- There is no comment in what is left. -/
theorem isComment_remains {z : Zone} {text front : List Char} (h : front <+: (remains z text).1) :
    (zoneOnLine z.visible front).isComment = false := by
  induction text generalizing z front with
  | nil =>
    cases z with
    | slash =>
      rcases List.prefix_cons_iff.mp h with rfl | ⟨rest, rfl, hrest⟩
      · rfl
      · rw [List.prefix_nil.mp hrest]
        rfl
    | _ => rw [List.prefix_nil.mp h, zoneOnLine_nil, Zone.isComment_visible]
  | cons c text ih =>
    rw [remains_cons] at h
    rcases List.prefix_or_prefix_of_prefix h (List.prefix_append _ _) with hfront | ⟨rest, rfl⟩
    · exact isComment_emit hfront
    · rw [zoneOnLine_append, zoneOnLine_emit]
      exact ih ((List.prefix_append_right_inj _).mp h)

end CodeAtlas.Outline.Braced
