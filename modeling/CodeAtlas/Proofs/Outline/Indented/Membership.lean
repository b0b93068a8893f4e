import CodeAtlas.Proofs.Outline.Indented.Ranges
import CodeAtlas.Proofs.Text.Lines

/-! # Which class a method belongs to

The class that is open at a line is carried along from line to line, while the last line of a class
is found by a scan of its own. Both look for the next line that ends a block of the outermost level.
So what a line declares can be said without the lines in front of it, by the line itself and the
range of the class around it.
-/
namespace CodeAtlas.Outline.Indented
open Text

/-! ## Lines by themselves -/

/-- What a line declares, where `owner` says which class it may be in. -/
inductive Yields (raw : List Char) (owner : String → Prop) : (name : String) → SymbolKind →
    (parent : String) → Prop
  | classType {name : String} (hindent : indent raw = 0)
      (hname : className? (trim raw) = some name.toList) :
    Yields raw owner name .classType ""
  | function {name : String} (hindent : indent raw = 0)
      (hname : functionName? (trim raw) = some name.toList) :
    Yields raw owner name .function ""
  | constant {name : String} (hindent : indent raw = 0)
      (hname : constantName? (trim raw) = some name.toList) :
    Yields raw owner name .constant ""
  | method {name parent : String} (hindent : 0 < indent raw)
      (hname : functionName? (trim raw) = some name.toList)
    (howner : owner parent) : Yields raw owner name .method parent

section Line
variable {text name raw : List Char} {openClass : Option String}
  {decorators : List (List Char)} {line : Nat}

theorem head?_of_className? (h : className? text = some name) : text.head? = some 'c' := by
  cases text with
  | nil => simp [className?, literal, after?] at h
  | cons c rest =>
    by_cases hc : 'c' = c
    · rw [hc, List.head?_cons]
    · simp [className?, literal, after?, hc] at h

theorem head?_of_functionName? (h : functionName? text = some name) :
    text.head? = some 'a' ∨ text.head? = some 'd' := by
  cases text with
  | nil => simp [functionName?, literal, after?, skipWord] at h
  | cons c rest =>
    by_cases ha : 'a' = c
    · exact Or.inl (ha ▸ rfl)
    · by_cases hd : 'd' = c
      · exact Or.inr (hd ▸ rfl)
      · simp [functionName?, literal, after?, skipWord, ha, hd] at h

theorem head?_of_constantName? (h : constantName? text = some name) :
    ∃ c, text.head? = some c ∧ (c = '_' ∨ c.isUpper = true) := by
  cases text with
  | nil => simp [constantName?] at h
  | cons c rest =>
    refine ⟨c, rfl, ?_⟩
    by_cases hlow : c = '_'
    · exact Or.inl hlow
    · by_cases hupper : c.isUpper = true
      · exact Or.inr hupper
      · simp [constantName?, List.span_eq_takeWhile_dropWhile, hlow, hupper] at h

theorem className?_of_functionName? (h : functionName? text = some name) :
    className? text = none := by
  cases hclass : className? text with
  | none => rfl
  | some other =>
    rcases head?_of_functionName? h with hhead | hhead <;>
      simp [head?_of_className? hclass] at hhead

theorem className?_of_constantName? (h : constantName? text = some name) :
    className? text = none := by
  cases hclass : className? text with
  | none => rfl
  | some other =>
    obtain ⟨c, hhead, hc⟩ := head?_of_constantName? h
    obtain rfl : 'c' = c := by simpa [head?_of_className? hclass] using hhead
    simp at hc

theorem functionName?_of_constantName? (h : constantName? text = some name) :
    functionName? text = none := by
  cases hfunction : functionName? text with
  | none => rfl
  | some other =>
    obtain ⟨c, hhead, hc⟩ := head?_of_constantName? h
    rcases head?_of_functionName? hfunction with hfirst | hfirst
    · obtain rfl : 'a' = c := by simpa [hfirst] using hhead
      simp at hc
    · obtain rfl : 'd' = c := by simpa [hfirst] using hhead
      simp at hc

/-- A line declares what it yields by itself, if the open class is the one that it may be in. -/
theorem exists_declaration?_iff {name : String} {kind : SymbolKind} {parent : String} :
    (∃ s, declaration? openClass decorators (indent raw) (trim raw) line = some s ∧
      s.name = name ∧ s.kind = kind ∧ s.parent = parent) ↔
    Yields raw (openClass = some ·) name kind parent := by
  constructor
  · rintro ⟨s, h, rfl, rfl, rfl⟩
    unfold declaration? at h
    split at h
    next found hclass =>
      obtain rfl := Option.some.inj h
      obtain ⟨hindent, hclass⟩ := Option.ite_none_right_eq_some.mp hclass
      exact Yields.classType hindent (by simpa using hclass)
    next =>
      split at h
      next found hfunction =>
        split at h
        next hindent =>
          obtain rfl := Option.some.inj h
          exact Yields.function hindent (by simpa using hfunction)
        next hindent =>
          obtain ⟨owner, howner, rfl⟩ := Option.map_eq_some_iff.mp h
          exact Yields.method (Nat.pos_of_ne_zero hindent) (by simpa using hfunction) howner
      next =>
        obtain ⟨hindent, h⟩ := Option.ite_none_right_eq_some.mp h
        obtain ⟨found, hconstant, rfl⟩ := Option.map_eq_some_iff.mp h
        exact Yields.constant hindent (by simpa using hconstant)
  · intro h
    cases h with
    | classType hindent hname => simp [declaration?, hindent, hname]
    | function hindent hname =>
      simp [declaration?, hindent, hname, className?_of_functionName? hname]
    | constant hindent hname =>
      simp [declaration?, hindent, hname, className?_of_constantName? hname,
        functionName?_of_constantName? hname]
    | method hindent hname howner => simp [declaration?, Nat.ne_of_gt hindent, hname, howner]

theorem Yields.imp {owner other : String → Prop} {name : String} {kind : SymbolKind}
    {parent : String} (h : Yields raw owner name kind parent)
    (himp : 0 < indent raw → ∀ p, owner p → other p) : Yields raw other name kind parent := by
  cases h with
  | classType hindent hname => exact .classType hindent hname
  | function hindent hname => exact .function hindent hname
  | constant hindent hname => exact .constant hindent hname
  | method hindent hname howner => exact .method hindent hname (himp hindent _ howner)

theorem head?_of_isDecorator (h : isDecorator text = true) : text.head? = some '@' := by
  unfold isDecorator at h
  split at h
  next => rfl
  next => cases h

theorem not_yields_of_isDecorator {owner : String → Prop} {name : String} {kind : SymbolKind}
    {parent : String} (h : isDecorator (trim raw) = true) :
    ¬ Yields raw owner name kind parent := by
  have hhead := head?_of_isDecorator h
  intro hyields
  cases hyields with
  | classType hindent hname => simp [head?_of_className? hname] at hhead
  | function hindent hname => rcases head?_of_functionName? hname with h | h <;> simp [h] at hhead
  | constant hindent hname =>
    obtain ⟨c, hc, hclass⟩ := head?_of_constantName? hname
    obtain rfl : '@' = c := by simpa [hhead] using hc
    simp at hclass
  | method hindent hname howner =>
    rcases head?_of_functionName? hname with h | h <;> simp [h] at hhead

end Line

/-! ## The open class -/

/-- The class that is open behind a line: a line that ends the blocks of the outermost level closes
it and may open another one. -/
def classBehind (openClass : Option String) (raw : List Char) : Option String :=
  if endsBlock 0 raw then (className? (trim raw)).map String.ofList else openClass

section OpenClass
variable {raw : List Char} {st : State}

theorem classAt_eq (st : State) (h : isSkippable (trim raw) = false) :
    st.classAt (indent raw) (trim raw) = if endsBlock 0 raw then none else st.openClass := by
  simp [State.classAt, endsBlock, h]

theorem classBehind_of_no_class (hcode : isSkippable (trim raw) = false)
    (h : indent raw = 0 → className? (trim raw) = none) :
    classBehind st.openClass raw = st.classAt (indent raw) (trim raw) := by
  rw [classAt_eq st hcode, classBehind]
  by_cases hends : endsBlock 0 raw = true
  · have hindent : indent raw = 0 := by simp_all [endsBlock]
    simp [hends, h hindent]
  · simp [hends]

/-- A class that a line declares is open behind it; no other symbol opens one. -/
theorem classBehind_of_declaration? {decorators : List (List Char)} {line : Nat} {s : Symbol}
    (hcode : isSkippable (trim raw) = false)
    (h : declaration? (st.classAt (indent raw) (trim raw)) decorators (indent raw)
      (trim raw) line = some s) :
    classBehind st.openClass raw =
      if s.kind = .classType then some s.name else st.classAt (indent raw) (trim raw) := by
  have hopen := closesBracket_of_declaration? h
  have hyields := exists_declaration?_iff.mp ⟨s, h, rfl, rfl, rfl⟩
  generalize hkind : s.kind = kind at hyields
  generalize s.parent = parent at hyields
  cases hyields with
  | classType hindent hname => simp [classBehind, endsBlock, hindent, hcode, hopen, hname]
  | function hindent hname =>
    exact classBehind_of_no_class hcode fun _ => className?_of_functionName? hname
  | constant hindent hname =>
    exact classBehind_of_no_class hcode fun _ => className?_of_constantName? hname
  | method hindent hname howner =>
    exact classBehind_of_no_class hcode fun _ => className?_of_functionName? hname

/-- A line at the outermost level closes the class, but it is no method either. -/
theorem yields_classAt_iff {name : String} {kind : SymbolKind} {parent : String} :
    Yields raw (st.classAt (indent raw) (trim raw) = some ·) name kind parent ↔
      Yields raw (st.openClass = some ·) name kind parent := by
  have howner (hindent : 0 < indent raw) : st.classAt (indent raw) (trim raw) = st.openClass := by
    simp [State.classAt, Nat.ne_of_gt hindent]
  constructor
  · exact fun h => h.imp fun hindent p hp => howner hindent ▸ hp
  · exact fun h => h.imp fun hindent p hp => (howner hindent).trans hp

/-- What one line does: it adds the symbol that it yields, if any, and passes the open class on. -/
theorem symbolsFrom_line (st : State) (line : Nat) (raw : List Char) (rest : List (List Char)) :
    ∃ (st' : State) (found : Option Symbol), st'.openClass = classBehind st.openClass raw ∧
      symbolsFrom st line (raw :: rest) = found.toList ++ symbolsFrom st' (line + 1) rest ∧
      (∀ s ∈ found, s.line = line) ∧
      (isSkippable (trim raw) = false → ∀ name kind parent,
        (∃ s ∈ found, s.name = name ∧ s.kind = kind ∧ s.parent = parent) ↔
          Yields raw (st.openClass = some ·) name kind parent) := by
  rw [symbolsFrom]
  cases hcode : isSkippable (trim raw) with
  | true => exact ⟨_, none, by simp [classBehind, endsBlock, hcode], rfl, by simp, by simp⟩
  | false =>
    simp only [Bool.false_eq_true, if_false]
    cases hdecorator : isDecorator (trim raw) with
    | true =>
      refine ⟨_, none, ?_, rfl, by simp, fun _ name kind parent => ?_⟩
      · refine (classBehind_of_no_class hcode fun _ =>
          Option.eq_none_iff_forall_ne_some.mpr ?_).symm
        intro name hname
        have hhead := head?_of_className? hname
        simp [head?_of_isDecorator hdecorator] at hhead
      · simp [not_yields_of_isDecorator hdecorator]
    | false =>
      simp only [Bool.false_eq_true, if_false]
      cases hdeclared :
        declaration? (st.classAt (indent raw) (trim raw)) st.decorators (indent raw) (trim raw)
          line with
      | none =>
        refine ⟨_, none, ?_, rfl, by simp, fun _ name kind parent => ?_⟩
        · refine (classBehind_of_no_class hcode fun hindent => ?_).symm
          cases hname : className? (trim raw) with
          | none => rfl
          | some name => simp [declaration?, hindent, hname] at hdeclared
        · rw [← yields_classAt_iff, ← exists_declaration?_iff, hdeclared]
          simp
      | some s =>
        refine ⟨_, some _, ?_, rfl, ?_, fun _ name kind parent => ?_⟩
        · exact (classBehind_of_declaration? hcode hdeclared).symm
        · simpa using (declaration?_cases hdeclared).1
        · rw [← yields_classAt_iff, ← exists_declaration?_iff, hdeclared]
          simp

theorem isDeclaredBy_of_mem {s : Symbol} {line : Nat} {before behind : List (List Char)}
    (hs : s ∈ symbolsFrom st line (before ++ raw :: behind))
    (hline : s.line = (line + before.length : Nat)) :
    IsDeclaredBy s raw (line + before.length) behind := by
  obtain ⟨n, other, hother, hdeclared⟩ := exists_isDeclaredBy hs
  have hn : n = before.length := by
    have := hdeclared.line_eq
    omega
  subst hn
  obtain rfl : raw = other := by simpa using hother
  have hdrop : (before ++ raw :: behind).drop (before.length + 1) = behind := by
    rw [← List.drop_drop, List.drop_left, List.drop_one, List.tail_cons]
  rwa [hdrop] at hdeclared

/-- What a line yields, among the symbols of the whole run. -/
theorem exists_mem_symbolsFrom_iff (st : State) (line : Nat) (before behind : List (List Char))
    (hcode : isSkippable (trim raw) = false) (name : String) (kind : SymbolKind) (parent : String) :
    (∃ s ∈ symbolsFrom st line (before ++ raw :: behind), s.line = (line + before.length : Nat) ∧
      s.name = name ∧ s.kind = kind ∧ s.parent = parent) ↔
      Yields raw (before.foldl classBehind st.openClass = some ·) name kind parent := by
  induction before generalizing st line with
  | nil =>
    obtain ⟨st', found, -, hsymbols, hline, hyields⟩ := symbolsFrom_line st line raw behind
    rw [List.nil_append, hsymbols, List.foldl_nil, ← hyields hcode]
    simp only [List.mem_append, Option.mem_toList]
    constructor
    · rintro ⟨s, hs | hs, heq, hrest⟩
      · exact ⟨s, hs, hrest⟩
      · obtain ⟨m, other, -, hdeclared⟩ := exists_isDeclaredBy hs
        have hbehind := hdeclared.line_eq
        rw [List.length_nil] at heq
        omega
    · rintro ⟨s, hs, hrest⟩
      exact ⟨s, Or.inl hs, hline s hs, hrest⟩
  | cons first before ih =>
    obtain ⟨st', found, hopen, hsymbols, hline, -⟩ :=
      symbolsFrom_line st line first (before ++ raw :: behind)
    rw [List.cons_append, hsymbols, List.foldl_cons, ← hopen, ← ih st' (line + 1), List.length_cons]
    simp only [List.mem_append, Option.mem_toList]
    constructor
    · rintro ⟨s, hs | hs, heq, hrest⟩
      · have hfirst := hline s hs
        omega
      · exact ⟨s, hs, by omega, hrest⟩
    · rintro ⟨s, hs, heq, hrest⟩
      exact ⟨s, Or.inr hs, by omega, hrest⟩

theorem foldl_classBehind_of_forall {lines : List (List Char)} (openClass : Option String)
    (h : ∀ other ∈ lines, endsBlock 0 other = false) :
    lines.foldl classBehind openClass = openClass := by
  induction lines with
  | nil => rfl
  | cons first lines ih =>
    obtain ⟨hfirst, hlines⟩ := List.forall_mem_cons.mp h
    simp [classBehind, hfirst, ih hlines]

/-- The class behind some lines was open before, or is declared by the last of them that
ends a block. -/
theorem exists_of_foldl_classBehind {lines : List (List Char)} {openClass : Option String}
    {owner : String} (h : lines.foldl classBehind openClass = some owner) :
    openClass = some owner ∧ (∀ other ∈ lines, endsBlock 0 other = false) ∨
      ∃ before raw between, lines = before ++ raw :: between ∧ endsBlock 0 raw = true ∧
        className? (trim raw) = some owner.toList ∧ ∀ other ∈ between,
          endsBlock 0 other = false := by
  induction lines generalizing openClass with
  | nil => exact Or.inl ⟨h, nofun⟩
  | cons first lines ih =>
    rw [List.foldl_cons] at h
    rcases ih h with ⟨hopen, hlines⟩ | ⟨before, raw, between, rfl, hraw⟩
    · by_cases hends : endsBlock 0 first = true
      · rw [classBehind, if_pos hends, Option.map_eq_some_iff] at hopen
        obtain ⟨name, hname, rfl⟩ := hopen
        exact Or.inr ⟨[], first, lines, rfl, hends, by simpa using hname, hlines⟩
      · rw [classBehind, if_neg hends] at hopen
        exact Or.inl ⟨hopen, List.forall_mem_cons.mpr ⟨by simpa using hends, hlines⟩⟩
    · exact Or.inr ⟨first :: before, raw, between, rfl, hraw⟩

end OpenClass

/-! ## Ranges of classes -/

/-- The line is one behind the first of the class. -/
def Surrounds (c : Symbol) (line : Int) : Prop :=
  c.kind = .classType ∧ c.line < line ∧ line ≤ c.endLine

instance (c : Symbol) (line : Int) : Decidable (Surrounds c line) :=
  inferInstanceAs (Decidable (_ ∧ _ ∧ _))

section Surrounds
variable {file : List (List Char)} {raw inner : List Char} {k : Nat} {s t c d : Symbol}

/-- A block reaches a line of code if no line ends it up to there. -/
theorem le_blockEndFrom_iff (base : Nat) {last line : Nat} (h : last < line)
    (between after : List (List Char)) (hcode : isSkippable (trim inner) = false) :
    line + between.length ≤ blockEndFrom base last line (between ++ inner :: after) ↔
      ∀ other ∈ between ++ [inner], endsBlock base other = false := by
  induction between generalizing last line with
  | nil =>
    by_cases hends : endsBlock base inner = true
    · simp [blockEndFrom, hends, Nat.not_le_of_lt h]
    · have hle := le_blockEndFrom base (Nat.lt_succ_self line) after
      simpa [blockEndFrom, hends, hcode] using hle
  | cons first between ih =>
    by_cases hends : endsBlock base first = true
    · simp only [List.cons_append, blockEndFrom, hends, if_true, List.length_cons,
        List.forall_mem_cons]
      simp only [Bool.true_eq_false, false_and, iff_false]
      omega
    · have hnext : (if isSkippable (trim first) then last else line) < line + 1 := by
        split <;> omega
      have hih := ih hnext
      rw [Nat.add_right_comm] at hih
      simpa [blockEndFrom, hends, Nat.add_assoc] using hih

/-- The lines in front of the declaration of a symbol and those behind it. -/
theorem exists_cut_of_mem (hs : s ∈ symbolsOfLines file) :
    ∃ before raw behind, file = before ++ raw :: behind ∧
      IsDeclaredBy s raw (1 + before.length) behind ∧
      Yields raw (before.foldl classBehind none = some ·) s.name s.kind s.parent := by
  obtain ⟨n, raw, hraw, hdeclared⟩ := exists_isDeclaredBy hs
  obtain ⟨before, behind, rfl, rfl⟩ := exists_cut_at hraw
  have hyields := (exists_mem_symbolsFrom_iff {} 1 before behind hdeclared.isSkippable_eq _ _ _).mp
    ⟨s, hs, hdeclared.line_eq, rfl, rfl, rfl⟩
  exact ⟨before, raw, behind, rfl, isDeclaredBy_of_mem hs hdeclared.line_eq, hyields⟩

/-- Behind the first line of a class, its range reaches a line of code if none ends its block up
to there. -/
theorem surrounds_iff {before between behind : List (List Char)} {header : List Char}
    (hc : IsDeclaredBy c header (1 + before.length) (between ++ raw :: behind))
    (hkind : c.kind = .classType) (hindent : indent header = 0)
    (hcode : isSkippable (trim raw) = false) :
    Surrounds c ((before ++ header :: between).length + 1) ↔
      ∀ other ∈ between ++ [raw], endsBlock 0 other = false := by
  have hline := hc.line_eq
  have hend := hc.endLine_eq
  have hreach := le_blockEndFrom_iff 0 (Nat.lt_add_one (1 + before.length)) between behind hcode
  rw [hindent] at hend
  rw [Surrounds, ← hreach, List.length_append, List.length_cons]
  simp only [hkind, true_and]
  omega

/-- The class around a line is declared in front of it, and no line ends its block up to there. -/
theorem exists_cut_of_surrounds {before behind : List (List Char)}
    (hc : c ∈ symbolsOfLines (before ++ raw :: behind)) (hcode : isSkippable (trim raw) = false)
    (h : Surrounds c (before.length + 1)) :
    ∃ front header between, before = front ++ header :: between ∧ endsBlock 0 header = true ∧
      className? (trim header) = some c.name.toList ∧ ∀ other ∈ between ++ [raw],
        endsBlock 0 other = false := by
  obtain ⟨front, header, rest, hfile, hdeclared, hyields⟩ := exists_cut_of_mem hc
  obtain ⟨hkind, hbehind, -⟩ := id h
  have hline := hdeclared.line_eq
  rcases List.append_eq_append_iff.mp hfile with ⟨between, rfl, -⟩ | ⟨between, rfl, hrest⟩
  · rw [List.length_append] at hline
    omega
  cases between with
  | nil =>
    rw [List.append_nil] at hbehind
    omega
  | cons first between =>
    obtain ⟨rfl, rfl⟩ : first = header ∧ rest = between ++ raw :: behind := by
      simpa [eq_comm] using hrest
    rw [hkind] at hyields
    generalize c.parent = parent at hyields
    cases hyields with
    | classType hindent hname =>
      refine ⟨front, first, between, rfl, ?_, hname,
        (surrounds_iff hdeclared hkind hindent hcode).mp h⟩
      simp [endsBlock, hindent, hdeclared.isSkippable_eq, hdeclared.closesBracket_eq]

/-- The open class is the one whose range the line lies in. -/
theorem foldl_classBehind_eq_some_iff {before behind : List (List Char)} {owner : String}
    (hcode : isSkippable (trim raw) = false) (hindent : 0 < indent raw) :
    before.foldl classBehind none = some owner ↔
      ∃ c ∈ symbolsOfLines (before ++ raw :: behind), Surrounds c (before.length + 1) ∧
        c.name = owner := by
  constructor
  · intro h
    rcases exists_of_foldl_classBehind h with
      ⟨hnone, -⟩ | ⟨front, header, between, rfl, hends, hname, hbetween⟩
    · cases hnone
    have hheader : isSkippable (trim header) = false ∧ indent header = 0 := by simp_all [endsBlock]
    have hinside : endsBlock 0 raw = false := by simp [endsBlock, Nat.ne_of_gt hindent]
    obtain ⟨c, hc, hline, rfl, hkind, -⟩ :=
      (exists_mem_symbolsFrom_iff {} 1 front (between ++ raw :: behind) hheader.1 _ _ _).mpr
        (Yields.classType hheader.2 hname)
    have hsurrounds := surrounds_iff (isDeclaredBy_of_mem hc hline) hkind hheader.2 hcode
    refine ⟨c, ?_, hsurrounds.mpr ?_, rfl⟩
    · rw [List.append_assoc]
      exact hc
    · simpa [or_imp, forall_and] using ⟨hbetween, hinside⟩
  · rintro ⟨c, hc, hsurrounds, rfl⟩
    obtain ⟨front, header, between, rfl, hends, hname, hnone⟩ :=
      exists_cut_of_surrounds hc hcode hsurrounds
    rw [List.foldl_append, List.foldl_cons, classBehind, if_pos hends, hname, Option.map_some,
      String.ofList_toList]
    exact foldl_classBehind_of_forall _ fun other hother =>
      hnone other (List.mem_append_left _ hother)

theorem eq_of_line_eq (hs : s ∈ symbolsOfLines file) (ht : t ∈ symbolsOfLines file)
    (h : s.line = t.line) : s = t := by
  have hpairwise := List.pairwise_iff_getElem.mp (pairwise_symbolsFrom {} 1 file)
  obtain ⟨i, hi, rfl⟩ := List.getElem_of_mem hs
  obtain ⟨j, hj, rfl⟩ := List.getElem_of_mem ht
  rcases Nat.lt_trichotomy i j with hij | hij | hij
  · exact absurd h (Int.ne_of_lt (hpairwise i j hi hj hij).1)
  · simp [hij]
  · exact absurd h.symm (Int.ne_of_lt (hpairwise j i hj hi hij).1)

/-- No class begins in the range of another. -/
theorem not_surrounds_class (hc : c ∈ symbolsOfLines file) (hd : d ∈ symbolsOfLines file)
    (hkind : d.kind = .classType) : ¬ Surrounds c d.line := by
  intro h
  obtain ⟨before, raw, behind, rfl, hdeclared, hyields⟩ := exists_cut_of_mem hd
  have hline : d.line = before.length + 1 := by
    have := hdeclared.line_eq
    omega
  rw [hline] at h
  obtain ⟨-, -, between, -, -, -, hnone⟩ := exists_cut_of_surrounds hc hdeclared.isSkippable_eq h
  have hraw := hnone raw (by simp)
  rw [hkind] at hyields
  generalize d.parent = parent at hyields
  cases hyields with
  | classType hindent hname =>
    simp [endsBlock, hindent, hdeclared.isSkippable_eq, hdeclared.closesBracket_eq] at hraw

/-- A line lies in the range of one class at most. -/
theorem surrounds_unique (hc : c ∈ symbolsOfLines file) (hd : d ∈ symbolsOfLines file) {line : Int}
    (hcline : Surrounds c line) (hdline : Surrounds d line) : c = d := by
  have hcd := not_surrounds_class hc hd hdline.1
  have hdc := not_surrounds_class hd hc hcline.1
  simp only [Surrounds] at hcline hdline hcd hdc
  refine eq_of_line_eq hc hd ?_
  by_contra hne
  rcases Int.lt_or_gt_of_ne hne with hlt | hlt
  · exact hcd ⟨hcline.1, hlt, by omega⟩
  · exact hdc ⟨hdline.1, hlt, by omega⟩

/-- A line yields a symbol of the file by itself and the class around it. -/
theorem exists_mem_symbolsOfLines_iff (hraw : file[k]? = some raw)
    (hcode : isSkippable (trim raw) = false) {name : String} {kind : SymbolKind} {parent : String} :
    (∃ s ∈ symbolsOfLines file, s.line = k + 1 ∧ s.name = name ∧ s.kind = kind ∧
      s.parent = parent) ↔ Yields raw (fun owner => ∃ c ∈ symbolsOfLines file, Surrounds c (k + 1) ∧
      c.name = owner) name kind parent := by
  obtain ⟨before, behind, rfl, rfl⟩ := exists_cut_at hraw
  have hline : (1 + before.length : Nat) = (before.length + 1 : Int) := by omega
  have hrun := exists_mem_symbolsFrom_iff {} 1 before behind hcode name kind parent
  rw [hline] at hrun
  refine hrun.trans ⟨fun h => h.imp fun hindent owner => ?_, fun h => h.imp fun hindent owner => ?_⟩
  · exact (foldl_classBehind_eq_some_iff hcode hindent).mp
  · exact (foldl_classBehind_eq_some_iff hcode hindent).mpr

/-- Every symbol is yielded by a line of code. -/
theorem exists_yields_of_mem (hs : s ∈ symbolsOfLines file) :
    ∃ (k : Nat) (raw : List Char), file[k]? = some raw ∧ isSkippable (trim raw) = false ∧
      s.line = k + 1 ∧
      Yields raw (fun owner => ∃ c ∈ symbolsOfLines file, Surrounds c (k + 1) ∧ c.name = owner)
        s.name s.kind s.parent := by
  obtain ⟨k, raw, hraw, hdeclared⟩ := exists_isDeclaredBy hs
  have hline : s.line = k + 1 := by
    have := hdeclared.line_eq
    omega
  exact ⟨k, raw, hraw, hdeclared.isSkippable_eq, hline,
    (exists_mem_symbolsOfLines_iff hraw hdeclared.isSkippable_eq).mp ⟨s, hs, hline, rfl, rfl, rfl⟩⟩

theorem name_ne_empty (hs : s ∈ symbolsOfLines file) : s.name ≠ "" := by
  obtain ⟨n, raw, -, hdeclared⟩ := exists_isDeclaredBy hs
  intro hname
  exact hdeclared.name_ne (by rw [hname]; rfl)

/-- An indented line that has a symbol lies in the range of a class. -/
theorem exists_surrounds_of_indent (hs : s ∈ symbolsOfLines file) (hline : s.line = k + 1)
    (hraw : file[k]? = some raw) (hindent : 0 < indent raw) :
    ∃ c ∈ symbolsOfLines file, Surrounds c (k + 1) := by
  obtain ⟨m, other, hother, -, hsame, hyields⟩ := exists_yields_of_mem hs
  obtain rfl : m = k := by omega
  obtain rfl : other = raw := Option.some.inj (hother.symm.trans hraw)
  generalize s.kind = kind at hyields
  generalize s.parent = parent at hyields
  cases hyields with
  | classType hzero => omega
  | function hzero => omega
  | constant hzero => omega
  | method _ _ howner =>
    obtain ⟨c, hc, hsurrounds, -⟩ := howner
    exact ⟨c, hc, hsurrounds⟩

/-- The symbols that have a parent are the methods. -/
theorem parent_ne_empty_iff (hs : s ∈ symbolsOfLines file) : s.parent ≠ "" ↔ s.kind = .method := by
  obtain ⟨k, raw, -, -, -, hyields⟩ := exists_yields_of_mem hs
  generalize s.kind = kind at hyields ⊢
  generalize s.parent = parent at hyields ⊢
  cases hyields with
  | classType => simp
  | function => simp
  | constant => simp
  | method _ _ howner =>
    obtain ⟨c, hc, -, rfl⟩ := howner
    simp [name_ne_empty hc]

end Surrounds

/-- The symbols of a file, said line by line and without a state. They are in the order of their
lines, and a line of code has a symbol if it declares a class, a function or a constant at the
outermost level, or if it declares a function further in and lies in the range of a class. There is
one such class at most, and methods are the symbols that have a parent. -/
theorem symbols_stateless (content : List UInt8) :
    let file := lines (Utf8.decode content)
    let found := symbols content
    found.Pairwise (fun s t => s.line < t.line) ∧
    (∀ s ∈ found, ∃ (k : Nat) (raw : List Char), file[k]? = some raw ∧
      isSkippable (trim raw) = false ∧ s.line = k + 1) ∧
    (∀ (k : Nat) (raw : List Char), file[k]? = some raw → isSkippable (trim raw) = false →
      ∀ name kind parent,
        (∃ s ∈ found, s.line = k + 1 ∧ s.name = name ∧ s.kind = kind ∧ s.parent = parent) ↔
          Yields raw (fun owner => ∃ c ∈ found, Surrounds c (k + 1) ∧
            c.name = owner) name kind parent) ∧
    (∀ c ∈ found, ∀ d ∈ found, ∀ line, Surrounds c line → Surrounds d line → c = d) ∧
    (∀ (k : Nat) (raw : List Char), file[k]? = some raw → 0 < indent raw →
      (∀ c ∈ found, ¬ Surrounds c (k + 1)) → ∀ s ∈ found, s.line ≠ k + 1) ∧
    ∀ s ∈ found, s.parent ≠ "" ↔ s.kind = .method := by
  intro file found
  refine ⟨(pairwise_symbolsFrom _ _ _).imp And.left, fun s hs => ?_,
    fun k raw hraw hcode name kind parent => exists_mem_symbolsOfLines_iff hraw hcode,
    fun c hc d hd line => surrounds_unique hc hd, fun k raw hraw hindent hfree s hs hline => ?_,
    fun s hs => parent_ne_empty_iff hs⟩
  · obtain ⟨k, raw, hraw, hcode, hline, -⟩ := exists_yields_of_mem hs
    exact ⟨k, raw, hraw, hcode, hline⟩
  · obtain ⟨c, hc, hsurrounds⟩ := exists_surrounds_of_indent hs hline hraw hindent
    exact hfree c hc hsurrounds

/-- The header of the class goes over three lines, and a function inside of a method is a method
too. The last function is indented, but behind a line that ends the class. -/
theorem symbols_stateless_nested :
    let content := Utf8.encode
      "class A(\n  B\n):\n  @d\n  def f(self):\n    def g():\n      pass\nif x:\n  def h():\n    pass\n".toList
    (symbols content).map (fun s => (s.name, s.kind, s.line, s.endLine, s.parent)) =
      [("A", .classType, 1, 7, ""), ("f", .method, 5, 7, "A"), ("g", .method, 6, 7, "A")] ∧
    Yields "    def g():".toList (fun owner => ∃ c ∈ symbols content, Surrounds c (5 + 1) ∧
      c.name = owner) "g" .method "A" ∧
    ∀ s ∈ symbols content, s.line ≠ 8 + 1 := by
  intro content
  obtain ⟨-, -, hyields, -, hfree, -⟩ := symbols_stateless content
  have hsymbols : symbols content = [⟨"A", .classType, 1, 7, true, "class A(", ""⟩,
      ⟨"f", .method, 5, 7, true, "@d\ndef f(self):", "A"⟩,
        ⟨"g", .method, 6, 7, true, "def g():", "A"⟩] := by
    decide +kernel
  have hlines : (lines (Utf8.decode content))[5]? = some "    def g():".toList ∧
      (lines (Utf8.decode content))[8]? = some "  def h():".toList := by decide +kernel
  have hcode : isSkippable (trim "    def g():".toList) = false := by decide +kernel
  have hindent : 0 < indent "  def h():".toList := by decide +kernel
  rw [hsymbols] at hyields hfree ⊢
  refine ⟨rfl, (hyields 5 _ hlines.1 hcode "g" .method "A").mp ?_, hfree 8 _ hlines.2 hindent ?_⟩
  · simp
  · simp [Surrounds]

end CodeAtlas.Outline.Indented
