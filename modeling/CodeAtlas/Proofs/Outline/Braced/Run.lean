import CodeAtlas.Proofs.Outline.Braced.Declaration

/-! # The state behind some lines

Reading a file line by line, what is known behind a line is the nesting depth, whether a comment is
open, and the class whose body is open. The first two depend on the code of the lines alone,
whatever is declared there. The class was declared at depth zero, and the depth is above zero as
long as it is open.
-/
namespace CodeAtlas.Outline.Braced
open Text

/-- The state behind some lines, of which `line` is the number of the first. -/
def stateFrom : State → (line : Nat) → List (List Char) → State
  | st, _, [] => st
  | st, line, raw :: rest => stateFrom (st.read line raw).2 (line + 1) rest

/-- The state behind the first lines of a file. -/
def stateBehind (front : List (List Char)) : State := stateFrom {} 1 front

@[simp] theorem stateFrom_nil (st : State) (line : Nat) : stateFrom st line [] = st := rfl

@[simp] theorem stateFrom_cons (st : State) (line : Nat) (raw : List Char)
    (rest : List (List Char)) :
    stateFrom st line (raw :: rest) = stateFrom (st.read line raw).2 (line + 1) rest := rfl

theorem stateFrom_append (st : State) (line : Nat) (front rest : List (List Char)) :
    stateFrom st line (front ++ rest) = stateFrom (stateFrom st line front)
      (line + front.length) rest := by
  induction front generalizing st line with
  | nil => simp
  | cons raw front ih => simp [ih, Nat.add_assoc, Nat.add_comm 1]

/-- The symbols of a file are those of its first lines and those that are read in the state
behind them. -/
theorem exists_symbolsFrom_append (total : Nat) (st : State) (line : Nat)
    (front rest : List (List Char)) : ∃ found, symbolsFrom total st line (front ++ rest) =
      found ++ symbolsFrom total (stateFrom st line front) (line + front.length) rest := by
  induction front generalizing st line with
  | nil => exact ⟨[], rfl⟩
  | cons raw front ih =>
    obtain ⟨found, hfound⟩ := ih (st.read line raw).2 (line + 1)
    rw [List.cons_append, symbolsFrom_read, hfound, ← List.append_assoc, List.length_cons,
      Nat.add_comm front.length, ← Nat.add_assoc]
    exact ⟨_, rfl⟩

/-- What is told of a symbol, but for its extent and the text of its line. -/
def heading (s : Symbol) : String × SymbolKind × Int × String := (s.name, s.kind, s.line, s.parent)

section WithEnd
variable (total : Nat) (st : State) (line : Nat) (remaining : List (List Char)) (s : Symbol)

@[simp] theorem withEnd_line : (withEnd total st line remaining s).line = s.line := rfl
@[simp] theorem withEnd_name : (withEnd total st line remaining s).name = s.name := rfl
@[simp] theorem withEnd_parent : (withEnd total st line remaining s).parent = s.parent := rfl
@[simp] theorem heading_withEnd : heading (withEnd total st line remaining s) = heading s := rfl

end WithEnd

theorem line_of_read {st : State} {line : Nat} {raw : List Char} {t : Symbol}
    (h : (st.read line raw).1 = some t) : t.line = line :=
  (isNamedIn_of_declaration? (declaration?_of_read h)).line_eq

/-- Every symbol is declared by a line, in the state behind the lines in front of it. -/
theorem mem_symbolsFrom_iff {total : Nat} {st : State} {line : Nat} {file : List (List Char)}
    {s : Symbol} :
    s ∈ symbolsFrom total st line file ↔ ∃ before raw behind t, file = before ++ raw :: behind ∧
      ((stateFrom st line before).read (line + before.length) raw).1 = some t ∧
      s = withEnd total (stateFrom st line before) (line + before.length) (raw :: behind) t := by
  induction file generalizing st line with
  | nil => simp [symbolsFrom]
  | cons first file ih =>
    rw [symbolsFrom_read, List.mem_append, Option.mem_toList, Option.map_eq_some_iff, ih]
    constructor
    · rintro (⟨t, ht, rfl⟩ | ⟨before, raw, behind, t, rfl, ht, rfl⟩)
      · exact ⟨[], first, file, t, rfl, ht, rfl⟩
      · rw [Nat.add_assoc, Nat.add_comm 1] at ht ⊢
        exact ⟨first :: before, raw, behind, t, rfl, ht, rfl⟩
    · rintro ⟨before, raw, behind, t, hfile, ht, rfl⟩
      cases before with
      | nil =>
        obtain ⟨rfl, rfl⟩ : first = raw ∧ file = behind := by simpa using hfile
        exact Or.inl ⟨t, ht, rfl⟩
      | cons _ before =>
        obtain ⟨rfl, rfl⟩ : first = _ ∧ file = before ++ raw :: behind := by simpa using hfile
        rw [List.length_cons, Nat.add_comm before.length, ← Nat.add_assoc] at ht ⊢
        exact Or.inr ⟨before, raw, behind, t, rfl, ht, rfl⟩

theorem mem_symbolsOfLines_iff {file : List (List Char)} {s : Symbol} :
    s ∈ symbolsOfLines file ↔ ∃ before raw behind t, file = before ++ raw :: behind ∧
      ((stateBehind before).read (1 + before.length) raw).1 = some t ∧
      s = withEnd file.length (stateBehind before) (1 + before.length) (raw :: behind) t :=
  mem_symbolsFrom_iff

/-! ## Depth and comments -/

@[simp] theorem braceBalance_nil : braceBalance [] = 0 := rfl

section Read
variable (st : State) (line : Nat) (raw : List Char)

@[simp] theorem opening_depth (found : Option Symbol) : (st.opening found).depth = st.depth := by
  cases found with
  | none => rfl
  | some s => by_cases hs : s.kind = .classType <;> simp [State.opening, hs]

@[simp] theorem opening_inComment (found : Option Symbol) :
    (st.opening found).inComment = st.inComment := by
  cases found with
  | none => rfl
  | some s => by_cases hs : s.kind = .classType <;> simp [State.opening, hs]

theorem read_depth :
    (st.read line raw).2.depth = st.depth + braceBalance (codeOf st.inComment raw).1 := by
  by_cases hempty : (codeOf st.inComment raw).1 = []
  · simp [State.read, hempty]
  · simp [State.read, hempty, State.advance]

theorem read_inComment : (st.read line raw).2.inComment = (codeOf st.inComment raw).2 := by
  by_cases hempty : (codeOf st.inComment raw).1 = []
  · simp [State.read, hempty]
  · simp [State.read, hempty, State.advance]

end Read

/-! ## The open class -/

theorem kind_of_member? {text : List Char} {line : Nat} {owner : String} {s : Symbol}
    (h : member? text line owner = some s) : s.kind = .method ∧ s.parent = owner := by
  unfold member? at h
  split at h
  · obtain rfl := Option.some.inj h
    exact ⟨rfl, rfl⟩
  · simp only [Option.bind_eq_bind, Option.bind_eq_some_iff, Option.ite_none_left_eq_some,
      Option.some.injEq] at h
    obtain ⟨name, -, -, rfl⟩ := h
    exact ⟨rfl, rfl⟩

theorem kind_of_topLevel? {text : List Char} {line : Nat} {s : Symbol}
    (h : topLevel? text line = some s) : s.kind ≠ .method := by
  obtain ⟨⟨kind, name?, cut⟩, hshape, h⟩ := List.exists_of_findSome?_eq_some h
  obtain ⟨name, -, rfl⟩ := Option.map_eq_some_iff.mp h
  simp only [shapes, List.mem_cons, List.not_mem_nil, or_false, Prod.mk.injEq] at hshape
  rcases hshape with ⟨rfl, -⟩ | ⟨rfl, -⟩ | ⟨rfl, -⟩ | ⟨rfl, -⟩ | ⟨rfl, -⟩ | ⟨rfl, -⟩ <;> simp

/-- Classes are opened at depth zero, and the depth is above that as long as one is open. -/
structure Nested (st : State) : Prop where
  openClassDepth_eq : st.openClassDepth = 0
  depth_pos : st.openClass ≠ none → 0 < st.depth

theorem nested_initial : Nested {} := ⟨rfl, nofun⟩

/-- A class is declared at the outermost level only. -/
theorem depth_of_class {st : State} {text : List Char} {line : Nat} {s : Symbol}
    (h : declaration? st text line = some s) (hkind : s.kind = .classType) : st.depth = 0 := by
  rcases declaration?_cases h with ⟨hdepth, -⟩ | ⟨-, owner, -, hmember⟩
  · exact hdepth
  · simp [(kind_of_member? hmember).1] at hkind

theorem opening_openClassDepth {st : State} (h : Nested st) (text : List Char) (line : Nat) :
    (st.opening (declaration? st text line)).openClassDepth = 0 := by
  cases hfound : declaration? st text line with
  | none => exact h.openClassDepth_eq
  | some s =>
    by_cases hkind : s.kind = .classType
    · simp [State.opening, hkind, depth_of_class hfound hkind]
    · simp [State.opening, hkind, h.openClassDepth_eq]

theorem nested_advance {st : State} (h : st.openClassDepth = 0) (text : List Char) :
    Nested (st.advance text) := by
  constructor
  · exact h
  · intro hopen
    have hdepth : 0 < st.depth + braceBalance text ∧ st.openClass ≠ none := by
      simpa [State.advance, h] using hopen
    exact hdepth.1

/-- Whatever a line declares, a class is open behind it only if the depth is above zero. -/
theorem nested_read {st : State} (h : Nested st) (line : Nat) (raw : List Char) :
    Nested (st.read line raw).2 := by
  have hst : Nested { st with inComment := (codeOf st.inComment raw).2 } :=
    ⟨h.openClassDepth_eq, h.depth_pos⟩
  have hzero := opening_openClassDepth hst (codeOf st.inComment raw).1 line
  by_cases hempty : (codeOf st.inComment raw).1 = []
  · simpa [State.read, hempty] using hst
  · simpa [State.read, hempty] using nested_advance hzero (codeOf st.inComment raw).1

theorem nested_stateFrom {st : State} (h : Nested st) (line : Nat) (front : List (List Char)) :
    Nested (stateFrom st line front) := by
  induction front generalizing st line with
  | nil => exact h
  | cons raw front ih => exact ih (nested_read h line raw) (line + 1)

theorem nested_stateBehind (front : List (List Char)) : Nested (stateBehind front) :=
  nested_stateFrom nested_initial 1 front

end CodeAtlas.Outline.Braced
