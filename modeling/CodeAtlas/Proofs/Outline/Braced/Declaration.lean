import CodeAtlas.Outline.Braced
import CodeAtlas.Proofs.Text.Word

/-! # What a line of JavaScript or TypeScript declares

Every symbol is declared by one line of the file. Comments are taken out of the line before it is
looked at, but never letters of a word, so that a name in the code of a line stands in the line
itself. Two kinds of names do not: private ones, which begin with a hash sign, and what follows the
letters `function` without anything in between.
-/
namespace CodeAtlas.Outline.Braced
open Text

/-! ## Comments -/

/-- The code is left of the line, which does not begin in a comment. -/
inductive Strips : (line code : List Char) → Prop
  | nil : Strips [] []
  | keep (c : Char) {line code : List Char} (h : Strips line code) : Strips (c :: line) (c :: code)
  | close (hidden : List Char) {line code : List Char} (h : Strips line code) :
    Strips ('/' :: hidden ++ '/' :: line) (' ' :: code)
  | drop (hidden : List Char) : Strips ('/' :: hidden) []

/-- What is left of a line that begins in a comment: nothing, or a space for the comment and the
code behind it. -/
def Reopens (line code : List Char) : Prop :=
  code = [] ∨ ∃ hidden rest behind, line = hidden ++ '/' :: rest ∧ code = ' ' :: behind ∧
    Strips rest behind

theorem stripFrom_cases (mode : Mode) (line : List Char) :
    match mode with
    | .code _ => Strips line (stripFrom mode line).1
    | .comment => Reopens line (stripFrom mode line).1 := by
  fun_induction stripFrom mode line with
  | case1 => exact Or.inl rfl
  | case2 rest code isOpen hcode ih =>
    rw [hcode] at ih
    exact Or.inr ⟨['*'], rest, code, rfl, rfl, ih⟩
  | case3 c rest hclose ih =>
    refine ih.imp_right ?_
    rintro ⟨hidden, behind, code, rfl, hcode, hbehind⟩
    exact ⟨c :: hidden, behind, code, rfl, hcode, hbehind⟩
  | case4 => exact Strips.nil
  | case5 quote c rest code isOpen hcode ih =>
    rw [hcode] at ih
    exact (ih.keep c).keep '\\'
  | case6 rest => exact Strips.drop ('/' :: rest)
  | case7 rest ih =>
    rcases ih with hnone | ⟨hidden, behind, code, rfl, hcode, hbehind⟩
    · rw [hnone]
      exact Strips.drop ('*' :: rest)
    · rw [hcode]
      exact Strips.close ('*' :: hidden) hbehind
  | case8 quote c rest hescape hline hblock code isOpen hcode ih =>
    rw [hcode] at ih
    exact ih.keep c

namespace Strips

/-- Code behind the given characters is left of the line behind others, with a word character at
their end only if there is one at the end of the given ones. -/
theorem exists_of_append {before line code : List Char} (h : Strips line (before ++ code))
    (last : Option Char) : ∃ front rest, line = front ++ rest ∧ Strips rest code ∧
      ((front.getLast?.or last).any isWordChar = true →
        (before.getLast?.or last).any isWordChar = true) := by
  induction before generalizing line last with
  | nil => exact ⟨[], line, rfl, h, id⟩
  | cons c before ih =>
    rw [List.cons_append] at h
    cases h with
    | keep c h =>
      obtain ⟨front, rest, rfl, hrest, hlast⟩ := ih h (some c)
      refine ⟨c :: front, rest, rfl, hrest, fun hword => ?_⟩
      rw [List.getLast?_cons, Option.some_or, ← Option.or_some] at hword ⊢
      exact hlast hword
    | close hidden h =>
      obtain ⟨front, rest, rfl, hrest, hlast⟩ := ih h (some '/')
      refine ⟨'/' :: hidden ++ '/' :: front, rest, by simp, hrest, fun hword => ?_⟩
      rw [List.getLast?_append, List.getLast?_cons, Option.some_or,
        Option.some_or, ← Option.or_some] at hword
      rw [List.getLast?_cons, Option.some_or, ← Option.or_some]
      cases hbefore : before.getLast? with
      | none =>
        rw [hbefore] at hlast
        exact absurd (hlast hword) (by decide)
      | some d =>
        rw [hbefore] at hlast
        exact hlast hword

/-- A run of word characters is left as it is. -/
theorem exists_of_word {name line code : List Char} (hname : ∀ c ∈ name, isWordChar c = true)
    (h : Strips line (name ++ code)) : ∃ rest, line = name ++ rest ∧ Strips rest code := by
  induction name generalizing line with
  | nil => exact ⟨line, rfl, h⟩
  | cons c name ih =>
    obtain ⟨hc, hname⟩ := List.forall_mem_cons.mp hname
    rw [List.cons_append] at h
    cases h with
    | keep c h =>
      obtain ⟨rest, rfl, hrest⟩ := ih hname h
      exact ⟨rest, rfl, hrest⟩
    | close hidden h => exact absurd hc (by decide)

theorem head?_any {line code : List Char} (h : Strips line code)
    (hcode : code.head?.any isWordChar = false) : line.head?.any isWordChar = false := by
  cases h with
  | nil => rfl
  | keep c h => exact hcode
  | close hidden h => rfl
  | drop hidden => rfl

/-- A word of the code is a word of the line. -/
theorem occurs {name line code : List Char} (h : Strips line code) (hne : name ≠ [])
    (hname : ∀ c ∈ name, isWordChar c = true) (hoccurs : Occurs name code) : Occurs name line := by
  have hends := hasWordEnds_of_all hne hname
  obtain ⟨before, after, rfl, hbefore, hafter⟩ := hoccurs.exists_edges hends
  rw [List.append_assoc] at h
  obtain ⟨front, rest, rfl, hrest, hlast⟩ := h.exists_of_append none
  obtain ⟨behind, rfl, hbehind⟩ := hrest.exists_of_word hname
  rw [← List.append_assoc]
  refine occurs_of_edges hends (eq_false_of_ne_true fun hfront => ?_) (hbehind.head?_any hafter)
  rw [Option.or_none, Option.or_none] at hlast
  exact Bool.eq_false_iff.mp hbefore (hlast hfront)

end Strips

theorem not_occurs_nil {name : List Char} (hne : name ≠ []) : ¬ Occurs name [] := by
  rintro ⟨before, after, h, -⟩
  simp [hne] at h

/-- A word of the code of a raw line is a word of that line. -/
theorem occurs_of_codeOf {inComment : Bool} {raw name : List Char}
    (hword : IsWordOf name (codeOf inComment raw).1) : Occurs name raw := by
  obtain ⟨hne, hname, h⟩ := hword
  refine Occurs.of_trim ?_
  change Occurs name (trim (stripFrom (if inComment then .comment else .code none) (trim raw)).1)
    at h
  cases inComment with
  | false => exact (stripFrom_cases (.code none) (trim raw)).occurs hne hname h.of_trim
  | true =>
    rw [if_pos rfl] at h
    obtain hnone | ⟨hidden, rest, behind, hline, hsome, hrest⟩ :=
      stripFrom_cases .comment (trim raw)
    · rw [hnone] at h
      exact absurd h.of_trim (not_occurs_nil hne)
    · rw [hsome] at h
      -- the space left of the comment is trimmed away
      have hbehind : Occurs name behind := Occurs.of_trim h
      have hwithin : Occurs name (hidden ++ ['/'] ++ rest ++ []) :=
        (hrest.occurs hne hname hbehind).within (by simp; decide) rfl
      rw [hline]
      simpa using hwithin

/-! ## Names -/

section Names
variable {text name : List Char}

theorem exists_modifiers (modifiers : List String) (text : List Char) :
    ∃ before, text = before ++ modifiers.foldl (fun rest m => skipWord m rest) text := by
  induction modifiers generalizing text with
  | nil => exact ⟨[], rfl⟩
  | cons m modifiers ih =>
    obtain ⟨before, hbefore⟩ := exists_skipWord m text
    obtain ⟨between, hbetween⟩ := ih (skipWord m text)
    refine ⟨before ++ between, ?_⟩
    rw [List.foldl_cons, List.append_assoc, ← hbetween, ← hbefore]

theorem isWordOf_of_namedAfter {modifiers : List String} {keyword : String}
    (h : namedAfter modifiers keyword text = some name) : IsWordOf name text := by
  simp only [namedAfter, Option.bind_eq_bind, Option.bind_eq_some_iff, literal, after?_eq_some_iff,
    Option.pure_def, Option.some.injEq, Prod.exists] at h
  obtain ⟨behind, hkeyword, rest, hblanks, found, after, hword, rfl⟩ := h
  obtain ⟨before, hbefore⟩ := exists_modifiers modifiers text
  rw [hbefore, hkeyword, ← List.append_assoc]
  exact isWordOf_of_blanks hblanks hword _

/-- The letters `function` are the beginning of a longer word. -/
def IsGlued (header : List Char) : Prop :=
  ∃ rest, literal "function" (["export", "default", "async"].foldl
    (fun r m => skipWord m r) header) = some rest ∧ rest.head?.any isWordChar = true

/-- Between a keyword and a name stand white space and a star. -/
theorem exists_star (text : List Char) :
    ∃ between, text = between ++ trimStart ((literal "*" text).getD text) ∧
      ∀ c ∈ between, isWordChar c = false := by
  cases hstar : literal "*" text with
  | none =>
    obtain ⟨gap, hgap, htext⟩ := exists_trimStart text
    exact ⟨gap, htext, fun c hc => isWordChar_of_isBlank (hgap c hc)⟩
  | some rest =>
    obtain ⟨gap, hgap, hrest⟩ := exists_trimStart rest
    rw [literal, after?_eq_some_iff] at hstar
    refine ⟨'*' :: gap, ?_, List.forall_mem_cons.mpr
      ⟨by decide, fun c hc => isWordChar_of_isBlank (hgap c hc)⟩⟩
    rw [hstar, Option.getD_some, List.cons_append, ← hrest]
    rfl

theorem ne_nil_of_functionName? (h : functionName? text = some name) : name ≠ [] := by
  simp only [functionName?, Option.bind_eq_bind, Option.bind_eq_some_iff, Option.pure_def,
    Option.some.injEq, Prod.exists] at h
  obtain ⟨rest, -, found, after, hword, rfl⟩ := h
  exact (exists_of_word hword).2.1

theorem isWordOf_of_functionName? (h : functionName? text = some name) (hglued : ¬ IsGlued text) :
    IsWordOf name text := by
  simp only [functionName?, Option.bind_eq_bind, Option.bind_eq_some_iff, Option.pure_def,
    Option.some.injEq, Prod.exists] at h
  obtain ⟨rest, hkeyword, found, after, hword, rfl⟩ := h
  have hrest : rest.head?.any isWordChar = false :=
    eq_false_of_ne_true fun hhead => hglued ⟨rest, hkeyword, hhead⟩
  obtain ⟨before, hbefore⟩ := exists_modifiers ["export", "default", "async"] text
  obtain ⟨gap, hgap, hcut⟩ := exists_trimStart rest
  obtain ⟨star, hstar, hfree⟩ := exists_star (trimStart rest)
  rw [hstar, ← List.append_assoc] at hcut
  have hbetween : gap ++ star ≠ [] := by
    intro hnil
    obtain ⟨hfound, hne, hall, -⟩ := exists_of_word hword
    rw [hcut, hnil, List.nil_append, hfound, List.head?_append, List.head?_eq_some_head hne,
      Option.some_or] at hrest
    exact Bool.eq_false_iff.mp hrest (hall _ (List.head_mem hne))
  rw [literal, after?_eq_some_iff] at hkeyword
  rw [hbefore, hkeyword, hcut, ← List.append_assoc, ← List.append_assoc]
  refine isWordOf_of_word hword (getLast?_any_append hbetween (fun c hc => ?_) _)
  rcases List.mem_append.mp hc with hc | hc
  · exact isWordChar_of_isBlank (hgap c hc)
  · exact hfree c hc

theorem isWordOf_of_plainMemberName? {before : List Char} (h : plainMemberName? text = some name)
    (hname : name.head? ≠ some '#') (hbefore : before.getLast?.any isWordChar = false) :
    IsWordOf name (before ++ text) := by
  simp only [plainMemberName?, Option.bind_eq_bind, Option.bind_eq_some_iff, Prod.exists] at h
  obtain ⟨found, rest, hword, c, -, hshown⟩ := h
  obtain ⟨star, hstar, hfree⟩ := exists_star text
  generalize trimStart ((literal "*" text).getD text) = behind at hword hshown hstar
  have hfound := (Option.ite_none_right_eq_some.mp hshown).2
  cases hhash : literal "#" behind with
  | some behindHash =>
    rw [startsWith, hhash, Option.isSome_some, if_pos rfl, Option.some.injEq] at hfound
    rw [← hfound] at hname
    exact absurd rfl hname
  | none =>
    rw [startsWith, hhash, Option.isSome_none, if_neg Bool.false_ne_true,
      Option.some.injEq] at hfound
    rw [hhash, Option.getD_none, hfound] at hword
    rw [hstar, ← List.append_assoc]
    refine isWordOf_of_word hword ?_
    cases star with
    | nil => rwa [List.append_nil]
    | cons d star => exact getLast?_any_append (List.cons_ne_nil d star) hfree before

/-- Each modifier has blanks behind it, so that what follows is a word by itself. -/
theorem isWordOf_of_memberName? {count : Nat} {before : List Char}
    (h : memberName? count text = some name) (hname : name.head? ≠ some '#')
    (hbefore : before.getLast?.any isWordChar = false) : IsWordOf name (before ++ text) := by
  induction count generalizing before text with
  | zero => exact isWordOf_of_plainMemberName? h hname hbefore
  | succ count ih =>
    rw [memberName?] at h
    split at h
    next rest hmodifier =>
      rcases Option.or_eq_some_iff.mp h with h | ⟨-, h⟩
      · obtain ⟨m, -, hm⟩ := List.exists_of_findSome?_eq_some hmodifier
        obtain ⟨behind, hliteral, hblanks⟩ := Option.bind_eq_some_iff.mp hm
        obtain ⟨gap, hgap, rfl⟩ := exists_isGap_of_blanks hblanks
        rw [literal, after?_eq_some_iff] at hliteral
        rw [hliteral, ← List.append_assoc, ← List.append_assoc]
        exact ih h (hgap.getLast?_any _)
      · exact isWordOf_of_plainMemberName? h hname hbefore
    next => exact isWordOf_of_plainMemberName? h hname hbefore

theorem isWordOf_of_isConstructor (h : isConstructor text = true) :
    IsWordOf "constructor".toList text := by
  rw [isConstructor, Option.isSome_iff_exists] at h
  obtain ⟨inside, h⟩ := h
  obtain ⟨rest, hname, hopen⟩ := Option.bind_eq_some_iff.mp h
  rw [literal, after?_eq_some_iff] at hname hopen
  have hrest : rest.head?.any isWordChar = false := by
    refine head?_any_of_trimStart ?_
    rw [hopen]
    rfl
  have hall : "constructor".toList.all isWordChar = true := by decide
  have hline : IsWordOf _ ([] ++ "constructor".toList ++ rest) :=
    isWordOf_of_edges (by decide) (List.all_eq_true.mp hall) rfl hrest
  rw [hname]
  exact hline

end Names

/-! ## Lines -/

/-- The name begins with a hash sign. -/
def IsPrivate (s : Symbol) : Prop := s.name.toList.head? = some '#'

/-- The letters `function` run into the name of the function. -/
def IsGluedFunction (s : Symbol) : Prop := s.kind = .function ∧ IsGlued s.signature.toList

/-- The symbol has a number and a name, and the name is a word of the code. -/
structure IsNamedIn (s : Symbol) (text : List Char) (line : Nat) : Prop where
  line_eq : s.line = line
  name_ne : s.name.toList ≠ []
  isWordOf : ¬ IsPrivate s → ¬ IsGluedFunction s → IsWordOf s.name.toList text

section Lines
variable {text : List Char} {line : Nat} {s : Symbol}

theorem isNamedIn_of_isWordOf {name : List Char} (hline : s.line = line)
    (hname : s.name = String.ofList name) (h : IsWordOf name text) : IsNamedIn s text line := by
  rw [← String.toList_ofList (l := name), ← hname] at h
  exact ⟨hline, h.ne_nil, fun _ _ => h⟩

theorem isNamedIn_of_topLevel? (h : topLevel? text line = some s) : IsNamedIn s text line := by
  obtain ⟨⟨kind, name?, cut⟩, hshape, h⟩ := List.exists_of_findSome?_eq_some h
  obtain ⟨name, hname, rfl⟩ := Option.map_eq_some_iff.mp h
  simp only [shapes, List.mem_cons, List.not_mem_nil, or_false, Prod.mk.injEq] at hshape
  rcases hshape with ⟨rfl, rfl, rfl⟩ | ⟨rfl, rfl, rfl⟩ | ⟨rfl, rfl, rfl⟩ | ⟨rfl, rfl, rfl⟩ | ⟨rfl,
    rfl, rfl⟩ | ⟨rfl, rfl, rfl⟩
  · refine ⟨rfl, by simpa using ne_nil_of_functionName? hname, fun _ hglued => ?_⟩
    rw [String.toList_ofList]
    exact isWordOf_of_functionName? hname fun h => hglued ⟨rfl, by simpa using h⟩
  · exact isNamedIn_of_isWordOf rfl rfl (isWordOf_of_namedAfter hname)
  · exact isNamedIn_of_isWordOf rfl rfl (isWordOf_of_namedAfter hname)
  · exact isNamedIn_of_isWordOf rfl rfl (isWordOf_of_namedAfter hname)
  · exact isNamedIn_of_isWordOf rfl rfl (isWordOf_of_namedAfter hname)
  · rcases Option.or_eq_some_iff.mp hname with h | ⟨-, h⟩
    · exact isNamedIn_of_isWordOf rfl rfl (isWordOf_of_namedAfter h)
    · rcases Option.or_eq_some_iff.mp h with h | ⟨-, h⟩
      · exact isNamedIn_of_isWordOf rfl rfl (isWordOf_of_namedAfter h)
      · exact isNamedIn_of_isWordOf rfl rfl (isWordOf_of_namedAfter h)

theorem isNamedIn_of_member? {owner : String} (h : member? text line owner = some s) :
    IsNamedIn s text line := by
  unfold member? at h
  split at h
  next hconstructor =>
    obtain rfl := Option.some.inj h
    have hword := isWordOf_of_isConstructor hconstructor
    exact ⟨rfl, hword.ne_nil, fun _ _ => hword⟩
  next =>
    simp only [Option.bind_eq_bind, Option.bind_eq_some_iff, Option.ite_none_left_eq_some,
      Option.some.injEq] at h
    obtain ⟨name, hname, -, rfl⟩ := h
    have hbefore : ([] : List Char).getLast?.any isWordChar = false := rfl
    have hword (hhash : name.head? ≠ some '#') : IsWordOf name text :=
      isWordOf_of_memberName? hname hhash hbefore
    refine ⟨rfl, ?_, fun hprivate _ => ?_⟩
    · rw [String.toList_ofList]
      rintro rfl
      exact (hword nofun).ne_nil rfl
    · rw [IsPrivate, String.toList_ofList] at hprivate
      rw [String.toList_ofList]
      exact hword hprivate

/-- A declaration is made at the outermost level, or one level inside of the open class. -/
theorem declaration?_cases {st : State} (h : declaration? st text line = some s) :
    st.depth = 0 ∧ topLevel? text line = some s ∨
      st.depth = st.openClassDepth + 1 ∧ ∃ owner, st.openClass = some owner ∧
        member? text line owner = some s := by
  unfold declaration? at h
  split at h
  · cases h
  · simp only [Option.or_eq_some_iff, Option.ite_none_right_eq_some, Option.bind_eq_some_iff] at h
    exact h.imp id And.right

theorem isNamedIn_of_declaration? {st : State} (h : declaration? st text line = some s) :
    IsNamedIn s text line := by
  rcases declaration?_cases h with ⟨-, htop⟩ | ⟨-, owner, -, hmember⟩
  · exact isNamedIn_of_topLevel? htop
  · exact isNamedIn_of_member? hmember

/-- What a line declares is declared by its code. -/
theorem declaration?_of_read {st : State} {raw : List Char} (h : (st.read line raw).1 = some s) :
    declaration? { st with inComment := (codeOf st.inComment raw).2 } (codeOf st.inComment raw).1
      line = some s := by
  unfold State.read at h
  dsimp only at h
  split at h
  · cases h
  · exact h

end Lines

/-! ## Files -/

/-- The symbol is declared by a line with the given number. -/
structure IsDeclaredBy (s : Symbol) (raw : List Char) (line : Nat) : Prop where
  line_eq : s.line = line
  name_ne : s.name.toList ≠ []
  occurs : ¬ IsPrivate s → ¬ IsGluedFunction s → Occurs s.name.toList raw

theorem symbolsFrom_read (total : Nat) (st : State) (line : Nat) (raw : List Char)
    (rest : List (List Char)) : symbolsFrom total st line (raw :: rest) =
      ((st.read line raw).1.map (withEnd total st line (raw :: rest))).toList ++
        symbolsFrom total (st.read line raw).2 (line + 1) rest := by
  rw [symbolsFrom]
  rcases st.read line raw with ⟨found, st'⟩
  cases found with
  | none => rfl
  | some s => rfl

/-- What one line adds: nothing, or one symbol that it declares. -/
theorem symbolsFrom_cons (total : Nat) (st : State) (line : Nat) (raw : List Char)
    (rest : List (List Char)) :
    ∃ st', symbolsFrom total st line (raw :: rest) = symbolsFrom total st' (line + 1) rest ∨
      ∃ s, IsDeclaredBy s raw line ∧
        symbolsFrom total st line (raw :: rest) = s :: symbolsFrom total st' (line + 1) rest := by
  rw [symbolsFrom_read]
  cases hfound : (st.read line raw).1 with
  | none => exact ⟨_, Or.inl rfl⟩
  | some s =>
    have hnamed := isNamedIn_of_declaration? (declaration?_of_read hfound)
    refine ⟨_, Or.inr ⟨_, ⟨?_, ?_, fun hprivate hglued => ?_⟩, rfl⟩⟩
    · exact hnamed.line_eq
    · exact hnamed.name_ne
    · exact occurs_of_codeOf (hnamed.isWordOf hprivate hglued)

/-- Every symbol is declared by a line of the file. -/
theorem exists_isDeclaredBy {s : Symbol} {total : Nat} {st : State} {line : Nat}
    {rest : List (List Char)} (h : s ∈ symbolsFrom total st line rest) :
    ∃ n raw, rest[n]? = some raw ∧ IsDeclaredBy s raw (line + n) := by
  induction rest generalizing st line with
  | nil => cases h
  | cons first rest ih =>
    have hlater {st' : State} (h : s ∈ symbolsFrom total st' (line + 1) rest) :
        ∃ n raw, (first :: rest)[n]? = some raw ∧ IsDeclaredBy s raw (line + n) := by
      obtain ⟨n, raw, hraw, hdeclared⟩ := ih h
      refine ⟨n + 1, raw, hraw, ?_⟩
      rw [← Nat.add_assoc, Nat.add_right_comm]
      exact hdeclared
    obtain ⟨st', hnone | ⟨t, ht, hsome⟩⟩ := symbolsFrom_cons total st line first rest
    · exact hlater (hnone ▸ h)
    · rw [hsome] at h
      rcases List.mem_cons.mp h with rfl | h
      · exact ⟨0, first, rfl, ht⟩
      · exact hlater h

end CodeAtlas.Outline.Braced
