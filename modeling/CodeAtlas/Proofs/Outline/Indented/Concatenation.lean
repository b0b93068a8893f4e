import CodeAtlas.Proofs.Outline.Indented.Ranges
import CodeAtlas.Proofs.Text.Lines
import CodeAtlas.Proofs.Text.Utf8

/-! # The outline of two texts, one behind the other

Two things cross the boundary between two texts: the state that is carried from line to line, and
the scans for the ends of the blocks. Code at the outermost level stops the scans and closes the
class, and a line that is no decorator leaves no decorators behind. So the outline of the whole is
that of the first text and that of the second one, moved down.
-/
namespace CodeAtlas

/-- The symbol that many lines further down. -/
def Symbol.moved (count : Nat) (s : Symbol) : Symbol :=
  { s with line := s.line + count, endLine := s.endLine + count }

namespace Outline.Indented
open Text

/-- The first line of code among the given ones, if any, stands at the outermost level and is no
tail of a bracket. -/
def StartsOutermost (lines : List (List Char)) : Prop :=
  ∀ first ∈ lines.find? (fun line => !isSkippable (trim line)), indent first = 0 ∧
    closesBracket (trim first) = false

instance (lines : List (List Char)) : Decidable (StartsOutermost lines) := by
  unfold StartsOutermost
  infer_instance

/-! ## One line -/

/-- What one line declares, but for its extent, and the state behind it. -/
def State.read (st : State) (line : Nat) (raw : List Char) : Option Symbol × State :=
  let text := trim raw
  if isSkippable text then (none, { st with decorators := [] })
  else
    let openClass := st.classAt (indent raw) text
    if isDecorator text then (none, { openClass, decorators := st.decorators ++ [text] })
    else match declaration? openClass st.decorators (indent raw) text line with
      | none => (none, { openClass })
      | some s => (some s, { openClass := if s.kind = .classType then some s.name else openClass })

/-- The symbol that a line declares, with its extent over the lines that follow. -/
def withEnd (line : Nat) (raw : List Char) (rest : List (List Char)) (s : Symbol) : Symbol :=
  { s with endLine := blockEndFrom (indent raw) line (line + 1) rest }

section Line
variable (st : State) (line count : Nat) (raw : List Char) (rest : List (List Char))

theorem symbolsFrom_read : symbolsFrom st line (raw :: rest) =
    ((st.read line raw).1.map (withEnd line raw rest)).toList ++ symbolsFrom (st.read line raw).2
      (line + 1) rest := by
  rw [symbolsFrom, State.read]
  cases isSkippable (trim raw) with
  | true => rfl
  | false =>
    cases isDecorator (trim raw) with
    | true => rfl
    | false =>
      simp only [Bool.false_eq_true, if_false]
      cases declaration? (st.classAt (indent raw) (trim raw)) st.decorators (indent raw)
        (trim raw) line with
      | none => rfl
      | some s => rfl

theorem declaration?_moved (openClass : Option String) (decorators : List (List Char))
    (column : Nat) (text : List Char) :
    declaration? openClass decorators column text (line + count) =
      (declaration? openClass decorators column text line).map fun s =>
        { s with line := s.line + count } := by
  unfold declaration?
  cases (if column = 0 then className? text else none) with
  | some name => simp
  | none =>
    cases functionName? text with
    | some name => by_cases hcolumn : column = 0 <;> simp [hcolumn, Function.comp_def]
    | none => by_cases hcolumn : column = 0 <;> simp [hcolumn, Function.comp_def]

theorem read_moved : st.read (line + count) raw =
    ((st.read line raw).1.map fun s => { s with line := s.line + count },
      (st.read line raw).2) := by
  simp only [State.read]
  cases isSkippable (trim raw) with
  | true => rfl
  | false =>
    cases isDecorator (trim raw) with
    | true => rfl
    | false =>
      simp only [Bool.false_eq_true, if_false, declaration?_moved]
      cases declaration? (st.classAt (indent raw) (trim raw)) st.decorators (indent raw)
        (trim raw) line with
      | none => rfl
      | some s => rfl

/-- A line that is no decorator leaves none behind. -/
theorem decorators_read (h : isDecorator (trim raw) = false) :
    (st.read line raw).2.decorators = [] := by
  simp only [State.read]
  cases isSkippable (trim raw) with
  | true => rfl
  | false =>
    simp only [h, Bool.false_eq_true, if_false]
    cases declaration? (st.classAt (indent raw) (trim raw)) st.decorators (indent raw)
      (trim raw) line with
    | none => rfl
    | some s => rfl

end Line

/-! ## Line numbers -/

theorem blockEndFrom_moved (base last line count : Nat) (rest : List (List Char)) :
    blockEndFrom base (last + count) (line + count) rest =
      blockEndFrom base last line rest + count := by
  induction rest generalizing last line with
  | nil => rfl
  | cons raw rest ih =>
    rw [blockEndFrom, blockEndFrom]
    by_cases hends : endsBlock base raw = true
    · simp [hends]
    · cases isSkippable (trim raw) <;> simp [hends, ← ih, Nat.add_right_comm]

/-- What is declared does not depend on how the lines are counted. -/
theorem symbolsFrom_moved (st : State) (line count : Nat) (rest : List (List Char)) :
    symbolsFrom st (line + count) rest = (symbolsFrom st line rest).map (Symbol.moved count) := by
  induction rest generalizing st line with
  | nil => rfl
  | cons raw rest ih =>
    rw [symbolsFrom_read, symbolsFrom_read, read_moved, Nat.add_right_comm, ih]
    cases (st.read line raw).1 with
    | none => rfl
    | some s => simp [withEnd, Symbol.moved, Nat.add_right_comm line count 1, blockEndFrom_moved]

/-! ## The boundary -/

section Boundary
variable {before behind : List (List Char)}

theorem StartsOutermost.tail {raw : List Char} (h : StartsOutermost (raw :: behind))
    (hraw : isSkippable (trim raw) = true) : StartsOutermost behind := by
  simpa [StartsOutermost, hraw] using h

theorem StartsOutermost.endsBlock {raw : List Char} (h : StartsOutermost (raw :: behind))
    (hraw : isSkippable (trim raw) = false) (base : Nat) : endsBlock base raw = true := by
  obtain ⟨hindent, hbracket⟩ := h raw (by simp [hraw])
  simp [Indented.endsBlock, hraw, hindent, hbracket]

/-- A scan ends at the first line of code at the outermost level, whatever stands in front of it. -/
theorem StartsOutermost.blockEndFrom_eq (h : StartsOutermost behind) (base last line : Nat) :
    blockEndFrom base last line behind = last := by
  induction behind generalizing line with
  | nil => rfl
  | cons raw behind ih =>
    rw [blockEndFrom]
    cases hraw : isSkippable (trim raw) with
    | true =>
      have hstays : Indented.endsBlock base raw = false := by simp [Indented.endsBlock, hraw]
      simp [hstays, ih (h.tail hraw)]
    | false => simp [h.endsBlock hraw base]

/-- No scan that starts in the first lines reaches into the others. -/
theorem blockEndFrom_append (h : StartsOutermost behind) (base last line : Nat) :
    blockEndFrom base last line (before ++ behind) = blockEndFrom base last line before := by
  induction before generalizing last line with
  | nil => exact h.blockEndFrom_eq base last line
  | cons raw before ih => simp only [List.cons_append, blockEndFrom, ih]

/-- The class that is open in front of code at the outermost level is of no account. -/
theorem StartsOutermost.symbolsFrom_eq (h : StartsOutermost behind) {st : State}
    (hst : st.decorators = []) (line : Nat) :
    symbolsFrom st line behind = symbolsFrom {} line behind := by
  induction behind generalizing st line with
  | nil => rfl
  | cons raw behind ih =>
    rw [symbolsFrom_read, symbolsFrom_read]
    cases hraw : isSkippable (trim raw) with
    | true =>
      have hnext (st : State) : st.read line raw = (none, { st with decorators := [] }) := by
        simp [State.read, hraw]
      rw [hnext, hnext, ih (h.tail hraw) rfl, ih (h.tail hraw) rfl]
    | false =>
      obtain ⟨hindent, hbracket⟩ := h raw (by simp [hraw])
      have hnext : st.read line raw = State.read {} line raw := by
        simp [State.read, State.classAt, hraw, hindent, hbracket, hst]
      rw [hnext]

/-- Lines behind others are read as if they stood alone. -/
theorem symbolsFrom_append (h : StartsOutermost behind) {st : State}
    (hst : before = [] → st.decorators = [])
    (hlast : ∀ last ∈ before.getLast?, isDecorator (trim last) = false) (line : Nat) :
    symbolsFrom st line (before ++ behind) =
      symbolsFrom st line before ++ symbolsFrom {} (line + before.length) behind := by
  induction before generalizing st line with
  | nil => exact h.symbolsFrom_eq (hst rfl) line
  | cons raw before ih =>
    have hnext : before = [] → (st.read line raw).2.decorators = [] := by
      rintro rfl
      exact decorators_read st line raw (hlast raw rfl)
    have hrest : ∀ last ∈ before.getLast?, isDecorator (trim last) = false := by
      intro last hmem
      refine hlast last ?_
      cases before with
      | nil => cases hmem
      | cons _ _ => rwa [List.getLast?_cons_cons]
    have hend : withEnd line raw (before ++ behind) = withEnd line raw before := by
      funext s
      rw [withEnd, withEnd, blockEndFrom_append h]
    rw [List.cons_append, symbolsFrom_read, symbolsFrom_read, ih hnext hrest, hend,
      List.append_assoc, List.length_cons, Nat.add_comm before.length, ← Nat.add_assoc]

end Boundary

/-- The outline of two texts with a line feed between them. The first text leaves no decorator open,
and the code of the second one begins at the outermost level and not with the tail of a bracket. -/
theorem symbols_append (front rest : List UInt8)
    (hlast : ∀ last ∈ (lines (Utf8.decode front)).getLast?, isDecorator (trim last) = false)
    (hfirst : StartsOutermost (lines (Utf8.decode rest))) :
    symbols (front ++ 0x0A :: rest) =
      symbols front ++ (symbols rest).map (Symbol.moved (lines (Utf8.decode front)).length) := by
  have hlines : lines (Utf8.decode (front ++ 0x0A :: rest)) =
      lines (Utf8.decode front) ++ lines (Utf8.decode rest) := by
    rw [Utf8.decode_append front (by decide) rest]
    exact splitOn_append_sep '\n' _ _
  have hne : lines (Utf8.decode front) ≠ [] := splitOn_ne_nil _ _
  rw [symbols, hlines, symbolsOfLines, symbolsFrom_append hfirst (fun h => absurd h hne) hlast,
    symbolsFrom_moved]
  rfl

/-- A class and its method end in front of the blank and comment lines between the texts, and the
function with a decorator behind these lines is in no class. -/
theorem symbols_append_open_class :
    let front := Utf8.encode "class A:\n  def f(self):\n    pass\n  # note".toList
    let rest := Utf8.encode "\n# tail\n@d\ndef g():\n  def h():\n    pass\nB = 1\n".toList
    (∀ last ∈ (lines (Utf8.decode front)).getLast?, isDecorator (trim last) = false) ∧
      StartsOutermost (lines (Utf8.decode rest)) ∧
      symbols (front ++ 0x0A :: rest) = symbols front ++ (symbols rest).map (Symbol.moved 4) ∧
      symbols (front ++ 0x0A :: rest) =
        [⟨"A", .classType, 1, 3, true, "class A:", ""⟩,
          ⟨"f", .method, 2, 3, true, "def f(self):", "A"⟩,
          ⟨"g", .function, 8, 10, true, "@d\ndef g():", ""⟩,
          ⟨"B", .constant, 11, 11, true, "B = 1", ""⟩] := by
  intro front rest
  have hlast : ∀ last ∈ (lines (Utf8.decode front)).getLast?, isDecorator (trim last) = false := by
    decide +kernel
  have hfirst : StartsOutermost (lines (Utf8.decode rest)) := by decide +kernel
  have hcount : (lines (Utf8.decode front)).length = 4 := by decide +kernel
  exact ⟨hlast, hfirst, hcount ▸ symbols_append front rest hlast hfirst, by decide +kernel⟩

end Outline.Indented

end CodeAtlas
