import CodeAtlas.Outline.Indented
import CodeAtlas.Proofs.Text.Word

/-! # What a line of Python declares

Every symbol is declared by one line of the file. The name of the symbol stands in that line as a
whole word, and the line begins with no closing bracket, so that it cannot be the tail of a
declaration above it.
-/
namespace CodeAtlas.Outline.Indented
open Text

/-! ## Names -/

section Names
variable {text name : List Char}

theorem isWordOf_of_className? (h : className? text = some name) : IsWordOf name text := by
  simp only [className?, Option.bind_eq_bind, Option.bind_eq_some_iff, literal, after?_eq_some_iff,
    Option.pure_def, Option.some.injEq, Prod.exists] at h
  obtain ⟨behind, rfl, rest, hblanks, found, after, hword, rfl⟩ := h
  exact isWordOf_of_blanks hblanks hword _

theorem isWordOf_of_functionName? (h : functionName? text = some name) : IsWordOf name text := by
  simp only [functionName?, Option.bind_eq_bind, Option.bind_eq_some_iff, literal,
    after?_eq_some_iff, Prod.exists] at h
  obtain ⟨behind, hdef, rest, hblanks, found, after, hword, c, -, hopen⟩ := h
  obtain rfl : found = name := by simpa using (Option.ite_none_right_eq_some.mp hopen).2
  obtain ⟨before, hbefore⟩ := exists_skipWord "async" text
  rw [hbefore, hdef, ← List.append_assoc]
  exact isWordOf_of_blanks hblanks hword _

theorem isWordChar_of_constant {c : Char} (h : (c.isUpper || c.isDigit || c == '_') = true) :
    isWordChar c = true := by
  simp only [Bool.or_eq_true, beq_iff_eq] at h
  rcases h with (h | h) | rfl
  · have halpha : c.isAlpha = true := (Bool.or_eq_true _ _).mpr (Or.inl h)
    exact isWordChar_of_isAlphanum (by simp [Char.isAlphanum, halpha])
  · exact isWordChar_of_isAlphanum (by simp [Char.isAlphanum, h])
  · rfl

/-- An assignment begins with no word character, with an annotation in front of it or not. -/
theorem head?_any_of_assigned {rest : List Char} (h : (match trimStart rest with
      | ':' :: rest => rest.head?.any (· != '=') && isAssigned (rest.dropWhile (· != '='))
      | rest => isAssigned rest) = true) :
    (trimStart rest).head?.any isWordChar = false := by
  split at h
  next behind hrest =>
    rw [hrest]
    rfl
  next =>
    unfold isAssigned at h
    split at h
    · cases h
    next behind _ hrest =>
      rw [hrest]
      rfl
    · cases h

theorem isWordOf_of_constantName? (h : constantName? text = some name) : IsWordOf name text := by
  rw [constantName?, List.span_eq_takeWhile_dropWhile] at h
  have htext := List.takeWhile_append_dropWhile (p := (· == '_')) (l := text)
  have hlow : ∀ e ∈ text.takeWhile (· == '_'), isWordChar e = true := fun e he =>
    isWordChar_of_constant (by simp [List.mem_takeWhile_imp he])
  generalize text.takeWhile (· == '_') = low at h htext hlow
  cases hrest : text.dropWhile (· == '_') with
  | nil => simp [hrest] at h
  | cons c rest =>
    simp only [hrest, List.span_eq_takeWhile_dropWhile, Option.ite_none_right_eq_some,
      Option.some.injEq] at h
    obtain ⟨hupper, hassigned, rfl⟩ := h
    have hbehind := head?_any_of_trimStart (head?_any_of_assigned hassigned)
    have hmore : ∀ e ∈ rest.takeWhile (fun c => c.isUpper || c.isDigit || c == '_'),
        isWordChar e = true :=
      fun e he => by
        have hclass := List.mem_takeWhile_imp he
        exact isWordChar_of_constant hclass
    have hcut := List.takeWhile_append_dropWhile
        (p := fun c : Char => c.isUpper || c.isDigit || c == '_')
      (l := rest)
    have hall : ∀ e ∈ low ++ c :: rest.takeWhile (fun c => c.isUpper || c.isDigit || c == '_'),
        isWordChar e = true := fun e he => by
      simp only [List.mem_append, List.mem_cons] at he
      rcases he with he | rfl | he
      · exact hlow e he
      · exact isWordChar_of_constant (by simp [hupper])
      · exact hmore e he
    have hline : IsWordOf _ ([] ++ _ ++ _) := isWordOf_of_edges (by simp) hall rfl hbehind
    rw [List.nil_append, List.append_assoc, List.cons_append, hcut, ← hrest, htext] at hline
    exact hline

end Names

/-! ## Lines -/

section Lines
variable {openClass : Option String} {decorators : List (List Char)} {column line : Nat}
  {text raw : List Char} {s : Symbol}

/-- A line declares a class, a function or a constant, and the symbol has its name and number. -/
theorem declaration?_cases (h : declaration? openClass decorators column text line = some s) :
    s.line = line ∧ (className? text = some s.name.toList ∨
      functionName? text = some s.name.toList ∨ constantName? text = some s.name.toList) := by
  unfold declaration? at h
  split at h
  next name hclass =>
    obtain rfl := Option.some.inj h
    exact ⟨rfl, Or.inl (by simpa using (Option.ite_none_right_eq_some.mp hclass).2)⟩
  next =>
    split at h
    next name hfunction =>
      split at h
      · obtain rfl := Option.some.inj h
        exact ⟨rfl, Or.inr (Or.inl (by simpa using hfunction))⟩
      · obtain ⟨parent, -, rfl⟩ := Option.map_eq_some_iff.mp h
        exact ⟨rfl, Or.inr (Or.inl (by simpa using hfunction))⟩
    next =>
      obtain ⟨name, hconstant, rfl⟩ :=
        Option.map_eq_some_iff.mp (Option.ite_none_right_eq_some.mp h).2
      exact ⟨rfl, Or.inr (Or.inr (by simpa using hconstant))⟩

theorem isWordOf_of_declaration? (h : declaration? openClass decorators column text line = some s) :
    IsWordOf s.name.toList text := by
  obtain ⟨-, hclass | hfunction | hconstant⟩ := declaration?_cases h
  · exact isWordOf_of_className? hclass
  · exact isWordOf_of_functionName? hfunction
  · exact isWordOf_of_constantName? hconstant

theorem closesBracket_of_declaration?
    (h : declaration? openClass decorators column text line = some s) :
    closesBracket text = false := by
  cases text with
  | nil => rfl
  | cons c rest =>
    refine eq_false_of_ne_true fun hc => ?_
    simp only [closesBracket, Bool.or_eq_true, beq_iff_eq] at hc
    obtain ⟨-, h⟩ := declaration?_cases h
    rcases hc with (rfl | rfl) | rfl <;>
      simp [className?, functionName?, constantName?, literal, after?, skipWord] at h

end Lines

/-! ## Files -/

/-- The symbol is declared by a line with the given number, in front of the lines `after`. -/
structure IsDeclaredBy (s : Symbol) (raw : List Char) (line : Nat) (after : List (List Char)) :
    Prop where
  line_eq : s.line = line
  endLine_eq : s.endLine = blockEndFrom (indent raw) line (line + 1) after
  isSkippable_eq : isSkippable (trim raw) = false
  closesBracket_eq : closesBracket (trim raw) = false
  name_ne : s.name.toList ≠ []
  occurs : Occurs s.name.toList raw

/-- What one line adds: nothing, or one symbol that it declares. -/
theorem symbolsFrom_cons (st : State) (line : Nat) (raw : List Char) (rest : List (List Char)) :
    ∃ st', symbolsFrom st line (raw :: rest) = symbolsFrom st' (line + 1) rest ∨
      ∃ s, IsDeclaredBy s raw line rest ∧
        symbolsFrom st line (raw :: rest) = s :: symbolsFrom st' (line + 1) rest := by
  rw [symbolsFrom]
  cases hcode : isSkippable (trim raw) with
  | true => exact ⟨_, Or.inl rfl⟩
  | false =>
    simp only [Bool.false_eq_true, if_false]
    cases isDecorator (trim raw) with
    | true => exact ⟨_, Or.inl rfl⟩
    | false =>
      simp only [Bool.false_eq_true, if_false]
      cases hdeclared :
        declaration? (st.classAt (indent raw) (trim raw)) st.decorators (indent raw) (trim raw)
          line with
      | none => exact ⟨_, Or.inl rfl⟩
      | some s =>
        have hword := isWordOf_of_declaration? hdeclared
        refine ⟨_, Or.inr ⟨_, ⟨?_, rfl, hcode, ?_, ?_, ?_⟩, rfl⟩⟩
        · exact (declaration?_cases hdeclared).1
        · exact closesBracket_of_declaration? hdeclared
        · exact hword.ne_nil
        · exact hword.occurs.of_trim

/-- Every symbol is declared by a line of the file. -/
theorem exists_isDeclaredBy {s : Symbol} {st : State} {line : Nat} {rest : List (List Char)}
    (h : s ∈ symbolsFrom st line rest) :
    ∃ n raw, rest[n]? = some raw ∧ IsDeclaredBy s raw (line + n) (rest.drop (n + 1)) := by
  induction rest generalizing st line with
  | nil => cases h
  | cons first rest ih =>
    have hlater {st' : State} (h : s ∈ symbolsFrom st' (line + 1) rest) :
        ∃ n raw, (first :: rest)[n]? = some raw ∧
          IsDeclaredBy s raw (line + n) ((first :: rest).drop (n + 1)) := by
      obtain ⟨n, raw, hraw, hdeclared⟩ := ih h
      refine ⟨n + 1, raw, hraw, ?_⟩
      rw [List.drop_succ_cons, ← Nat.add_assoc, Nat.add_right_comm]
      exact hdeclared
    obtain ⟨st', hnone | ⟨t, ht, hsome⟩⟩ := symbolsFrom_cons st line first rest
    · exact hlater (hnone ▸ h)
    · rw [hsome] at h
      rcases List.mem_cons.mp h with rfl | h
      · exact ⟨0, first, rfl, ht⟩
      · exact hlater h

end CodeAtlas.Outline.Indented
