import CodeAtlas.Text.Find
import CodeAtlas.Text.Identifier

/-! # Places in Go source text

A cursor is a place in a source text, given by what is left of it, with its line and offset. Tokens
are read off at a cursor; the gap in front of a token holds white space and comments. Whether a line
feed is part of a gap depends on the place: where a statement may end, it ends it. Whatever is read
off leads on in the text.
-/
namespace CodeAtlas.Go
open Text

/-- A place in a source text. Lines count from one. -/
structure Cursor where
  rest : List Char
  line : Nat := 1
  offset : Nat := 0
  deriving DecidableEq, Repr

namespace Cursor

def advance (c : Cursor) : Nat → Cursor
  | 0 => c
  | n + 1 => match c.rest with
    | [] => c
    | ch :: rest =>
      advance { rest, line := if ch = '\n' then c.line + 1 else c.line, offset := c.offset + 1 } n

def textTo (c d : Cursor) : List Char := c.rest.take (d.offset - c.offset)

def peek? (c : Cursor) : Option Char := c.rest.head?

inductive GapMode where
  | blank
  | lineComment
  | blockComment
  deriving DecidableEq, Repr

def isSpace (c : Char) : Bool := c == ' ' || ('\t' ≤ c && c ≤ '\r')

/-- The end of a gap and the number of comments in it. A block comment that is never closed is none,
so its beginning is kept in `opened`. -/
def gapFrom (crossing : Bool) (opened : Cursor) : GapMode → (comments line offset : Nat) →
    List Char → Cursor × Nat
  | .blank, comments, line, offset, '/' :: '/' :: rest =>
    gapFrom crossing opened .lineComment (comments + 1) line (offset + 2) rest
  | .blank, comments, line, offset, '/' :: '*' :: rest =>
    gapFrom crossing ⟨'/' :: '*' :: rest, line, offset⟩ .blockComment (comments + 1) line
      (offset + 2) rest
  | .blank, comments, line, offset, '\n' :: rest =>
    if crossing then gapFrom crossing opened .blank comments (line + 1) (offset + 1) rest
    else (⟨'\n' :: rest, line, offset⟩, comments)
  | .blank, comments, line, offset, c :: rest =>
    if isSpace c then gapFrom crossing opened .blank comments line (offset + 1) rest
    else (⟨c :: rest, line, offset⟩, comments)
  | .lineComment, comments, line, offset, '\n' :: rest =>
    if crossing then gapFrom crossing opened .blank comments (line + 1) (offset + 1) rest
    else (⟨'\n' :: rest, line, offset⟩, comments)
  | .lineComment, comments, line, offset, _ :: rest =>
    gapFrom crossing opened .lineComment comments line (offset + 1) rest
  | .blockComment, comments, line, offset, '*' :: '/' :: rest =>
    gapFrom crossing opened .blank comments line (offset + 2) rest
  | .blockComment, comments, line, offset, c :: rest =>
    gapFrom crossing opened .blockComment comments (if c = '\n' then line + 1 else line)
      (offset + 1) rest
  | .blockComment, comments, _, _, [] => (opened, comments - 1)
  | _, comments, line, offset, [] => (⟨[], line, offset⟩, comments)

def gap (c : Cursor) (crossing : Bool := true) : Cursor × Nat :=
  gapFrom crossing c .blank 0 c.line c.offset c.rest

def skip (c : Cursor) (crossing : Bool := true) : Cursor := (c.gap crossing).1

/-- Behind the given signs, which stand at the place itself. -/
def sign? (c : Cursor) (s : String) : Option Cursor :=
  if startsWith s c.rest then some (c.advance s.length) else none

def reserved : List String :=
  ["break", "case", "chan", "const", "continue", "default", "defer", "else", "fallthrough", "for",
   "func", "go", "goto", "if", "import", "interface", "map", "package", "range", "return", "select",
   "struct", "switch", "type", "var"]

def word? (c : Cursor) : Option (String × Cursor) :=
  match c.rest with
  | [] => none
  | ch :: rest =>
    if isIdentifierStart ch then
      let word := ch :: rest.takeWhile isIdentifierContinue
      some (String.ofList word, c.advance word.length)
    else none

def keyword? (c : Cursor) (w : String) : Option Cursor :=
  match c.word? with
  | some (word, behind) => if word == w then some behind else none
  | none => none

/-- The identifier at a place. A reserved word is none wherever it stands, even where the grammar
has no use for it as a keyword: `func if() { }` breaks the grammar. -/
def identifier? (c : Cursor) : Option (String × Cursor) :=
  match c.word? with
  | some (word, behind) => if reserved.contains word then none else some (word, behind)
  | none => none

/-! ## Moving on -/

structure Spans (c : Cursor) (read : List Char) (d : Cursor) : Prop where
  rest_eq : c.rest = read ++ d.rest
  line_eq : d.line = c.line + read.count '\n'
  offset_eq : d.offset = c.offset + read.length

def Leads (c d : Cursor) : Prop := ∃ read, c.Spans read d

theorem Spans.refl (c : Cursor) : c.Spans [] c := ⟨rfl, rfl, rfl⟩

theorem Spans.trans {c d e : Cursor} {read more : List Char} (h : c.Spans read d)
    (h' : d.Spans more e) : c.Spans (read ++ more) e where
  rest_eq := by rw [h.rest_eq, h'.rest_eq, List.append_assoc]
  line_eq := by rw [h'.line_eq, h.line_eq, List.count_append, Nat.add_assoc]
  offset_eq := by rw [h'.offset_eq, h.offset_eq, List.length_append, Nat.add_assoc]

theorem Leads.refl (c : Cursor) : c.Leads c := ⟨[], .refl c⟩

theorem Leads.trans {c d e : Cursor} : c.Leads d → d.Leads e → c.Leads e
  | ⟨_, h⟩, ⟨_, h'⟩ => ⟨_, h.trans h'⟩

theorem Leads.line_le {c d : Cursor} : c.Leads d → c.line ≤ d.line
  | ⟨_, h⟩ => h.line_eq ▸ Nat.le_add_right _ _

theorem spans_cons (ch : Char) (rest : List Char) (line offset : Nat) :
    Spans ⟨ch :: rest, line, offset⟩ [ch] ⟨rest,
      if ch = '\n' then line + 1 else line, offset + 1⟩ where
  rest_eq := rfl
  line_eq := by by_cases h : ch = '\n' <;> simp [h]
  offset_eq := rfl

theorem spans_advance (c : Cursor) (n : Nat) : c.Spans (c.rest.take n) (c.advance n) := by
  induction n generalizing c with
  | zero => exact .refl c
  | succ n ih =>
    obtain ⟨rest, line, offset⟩ := c
    cases rest with
    | nil => exact .refl _
    | cons ch rest => exact (spans_cons ch rest line offset).trans (ih _)

theorem leads_advance (c : Cursor) (n : Nat) : c.Leads (c.advance n) := ⟨_, spans_advance c n⟩

/-- The second place ends a gap that begins at the first one. Only in front of a line feed or at the
end of the text can there be anything but white space and a closing comment mark at its end. -/
def EndsGap (c d : Cursor) : Prop :=
  ∃ read, c.Spans read d ∧ ∀ ch, read.getLast? = some ch →
    isSpace ch = true ∨ ch = '/' ∨ d.peek? = none ∨ d.peek? = some '\n'

theorem EndsGap.leads {c d : Cursor} : c.EndsGap d → c.Leads d
  | ⟨read, h, _⟩ => ⟨read, h⟩

theorem Leads.next {c : Cursor} {ch : Char} {rest : List Char} {line offset : Nat}
    (h : c.Leads ⟨ch :: rest, line, offset⟩) (hch : ch ≠ '\n') :
    c.Leads ⟨rest, line, offset + 1⟩ := by
  have hnext := spans_cons ch rest line offset
  rw [if_neg hch] at hnext
  exact h.trans ⟨_, hnext⟩

theorem Leads.endsGap {c : Cursor} {ch : Char} {rest : List Char} {line offset : Nat}
    (h : c.Leads ⟨ch :: rest, line, offset⟩) (hch : isSpace ch = true ∨ ch = '/') :
    c.EndsGap ⟨rest, if ch = '\n' then line + 1 else line, offset + 1⟩ := by
  obtain ⟨read, h⟩ := h
  refine ⟨_, h.trans (spans_cons ch rest line offset), fun d hd => ?_⟩
  rw [List.getLast?_append] at hd
  obtain rfl : ch = d := by simpa using hd
  exact hch.elim .inl (.inr ∘ .inl)

theorem endsGap_gapFrom (crossing : Bool) {c opened : Cursor} (mode : GapMode)
    (comments line offset : Nat) (text : List Char) (hopened : c.EndsGap opened)
    (h : c.Leads ⟨text, line, offset⟩) (hblank : mode = .blank → c.EndsGap ⟨text, line, offset⟩) :
    c.EndsGap (gapFrom crossing opened mode comments line offset text).1 := by
  fun_induction gapFrom crossing opened mode comments line offset text with
  | case1 opened comments line offset rest ih =>
    exact ih hopened ((h.next (by decide)).next (by decide)) nofun
  | case2 opened comments line offset rest ih =>
    exact ih (hblank rfl) ((h.next (by decide)).next (by decide)) nofun
  | case3 opened comments line offset rest hcrossing ih =>
    have hnext := h.endsGap (.inl (by decide))
    exact ih hopened hnext.leads fun _ => hnext
  | case4 => exact hblank rfl
  | case5 opened comments line offset ch rest hline hblock hfeed hspace ih =>
    have hnext := h.endsGap (.inl hspace)
    rw [if_neg hfeed] at hnext
    exact ih hopened hnext.leads fun _ => hnext
  | case6 => exact hblank rfl
  | case7 opened comments line offset rest hcrossing ih =>
    have hnext := h.endsGap (.inl (by decide))
    exact ih hopened hnext.leads fun _ => hnext
  | case8 opened comments line offset rest hcrossing =>
    obtain ⟨read, h⟩ := h
    exact ⟨read, h, fun _ _ => .inr (.inr (.inr rfl))⟩
  | case9 opened comments line offset ch rest hfeed ih => exact ih hopened (h.next hfeed) nofun
  | case10 opened comments line offset rest ih =>
    have hnext := (h.next (by decide)).endsGap (.inr rfl)
    exact ih hopened hnext.leads fun _ => hnext
  | case11 opened comments line offset ch rest hclose ih =>
    exact ih hopened (h.trans ⟨_, spans_cons ch rest line offset⟩) nofun
  | case12 => exact hopened
  | case13 mode opened comments line offset hmode =>
    obtain ⟨read, h⟩ := h
    exact ⟨read, h, fun _ _ => .inr (.inr (.inl rfl))⟩

theorem endsGap_skip (c : Cursor) (crossing : Bool) : c.EndsGap (c.skip crossing) :=
  have hhere : c.EndsGap c := ⟨[], .refl c, nofun⟩
  endsGap_gapFrom crossing .blank 0 c.line c.offset c.rest hhere (.refl c) fun _ => hhere

theorem leads_skip (c : Cursor) (crossing : Bool) : c.Leads (c.skip crossing) :=
  (endsGap_skip c crossing).leads

theorem leads_sign? {c d : Cursor} {s : String} (h : c.sign? s = some d) : c.Leads d := by
  unfold sign? at h
  split at h
  · exact Option.some.inj h ▸ leads_advance c _
  · cases h

theorem leads_word? {c d : Cursor} {w : String} (h : c.word? = some (w, d)) : c.Leads d := by
  unfold word? at h
  split at h
  · cases h
  · split at h
    · obtain ⟨-, rfl⟩ := Prod.mk.inj (Option.some.inj h)
      exact leads_advance c _
    · cases h

theorem leads_keyword? {c d : Cursor} {w : String} (h : c.keyword? w = some d) : c.Leads d := by
  unfold keyword? at h
  split at h
  next hword =>
    split at h
    · exact Option.some.inj h ▸ leads_word? hword
    · cases h
  · cases h

theorem leads_identifier? {c d : Cursor} {name : String} (h : c.identifier? = some (name, d)) :
    c.Leads d := by
  unfold identifier? at h
  split at h
  next hword =>
    split at h
    · cases h
    · obtain ⟨-, rfl⟩ := Prod.mk.inj (Option.some.inj h)
      exact leads_word? hword
  · cases h

end Cursor

end CodeAtlas.Go
