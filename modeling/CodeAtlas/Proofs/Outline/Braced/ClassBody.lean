import CodeAtlas.Proofs.Outline.Braced.Members
import Mathlib.Data.List.GetD

/-! # Lines of a class body

Methods are looked for while a class is open. It opens on its own line, provided that the depth is
above zero behind that line, and it stays open until the depth is back at zero. The last line of the
class is found by another scan, which follows a header over several lines. So the lines of a class
are not always those on which it is open.
-/
namespace CodeAtlas.Outline.Braced
open Text

/-! ## The open class, line by line -/

section Read
variable {st : State} {line : Nat} {raw : List Char} {t : Symbol} {owner : String}

theorem opening_openClass (found : Option Symbol) :
    (st.opening found).openClass = ((found.filter (·.kind = .classType)).map (·.name)).or
      st.openClass := by
  cases found with
  | none => rfl
  | some s => by_cases hs : s.kind = .classType <;> simp [State.opening, Option.filter, hs]

/-- Behind a line the class is open that was declared there or was open before, unless the depth is
back at zero. -/
theorem read_openClass (hst : Nested st) : (st.read line raw).2.openClass =
    if (st.read line raw).2.depth ≤ 0 then none else (st.opening
      (st.read line raw).1).openClass := by
  rw [read_depth, opening_openClass]
  by_cases hempty : (codeOf st.inComment raw).1 = []
  · have hclosed : st.depth ≤ 0 → st.openClass = none := by
      intro hdepth
      by_contra hopen
      exact Int.not_lt.mpr hdepth (hst.depth_pos hopen)
    by_cases hdepth : st.depth ≤ 0
    · simp [State.read, hempty, hdepth, hclosed hdepth]
    · simp [State.read, hempty, hdepth]
  · have hst' : Nested { st with inComment := (codeOf st.inComment raw).2 } :=
      ⟨hst.openClassDepth_eq, hst.depth_pos⟩
    have hzero := opening_openClassDepth hst' (codeOf st.inComment raw).1 line
    simp only [State.read, List.isEmpty_iff, hempty, if_false, State.advance, opening_depth, hzero,
      opening_openClass]

/-- A class is open behind its own line if that line goes deeper. -/
theorem openClass_read_of_class (hst : Nested st) (ht : (st.read line raw).1 = some t)
    (hkind : t.kind = .classType) (hdeep : 0 < (st.read line raw).2.depth) :
    (st.read line raw).2.openClass = some t.name := by
  rw [read_openClass hst, if_neg (Int.not_le.mpr hdeep), opening_openClass, ht]
  simp [hkind]

/-- An open class stays open behind a line that leaves the depth above zero. No other class takes
its place, for that would be declared at depth zero. -/
theorem openClass_read_of_open (hst : Nested st) (hopen : st.openClass = some owner)
    (hdeep : 0 < (st.read line raw).2.depth) : (st.read line raw).2.openClass = some owner := by
  have hpos : 0 < st.depth := hst.depth_pos (by simp [hopen])
  have hnone : (st.read line raw).1.filter (·.kind = .classType) = none := by
    refine Option.filter_eq_none_iff.mpr fun t ht => ?_
    simp only [decide_eq_true_eq]
    intro hkind
    have hzero : st.depth = 0 := depth_of_class (declaration?_of_read ht) hkind
    omega
  rw [read_openClass hst, if_neg (Int.not_le.mpr hdeep), opening_openClass, hnone, hopen]
  rfl

end Read

/-! ## The open class of a file -/

section File
variable {file : List (List Char)} {i : Nat} {c t : Symbol} {owner : String}

/-- What the line with index `i` declares, but for its extent. -/
def declaredAt (file : List (List Char)) (i : Nat) : Option Symbol :=
  ((stateBehind (file.take i)).read (1 + i) (file.getD i [])).1

theorem stateBehind_take_succ (hi : i < file.length) :
    stateBehind (file.take (i + 1)) = ((stateBehind (file.take i)).read (1 + i)
      (file.getD i [])).2 := by
  rw [List.take_succ_eq_append_getElem hi, stateBehind, stateFrom_append, stateFrom_cons,
    stateFrom_nil, List.length_take_of_le (Nat.le_of_lt hi), List.getD_eq_getElem _ _ hi]
  rfl

/-- The symbol on a line is what the line declares, with its extent. -/
theorem declaredAt_of_mem {s : Symbol} (hs : s ∈ symbolsOfLines file) (hline : s.line = i + 1) :
    i < file.length ∧ ∃ t, declaredAt file i = some t ∧ s = { t with endLine := s.endLine } := by
  obtain ⟨front, raw, behind, t, rfl, ht, rfl⟩ := mem_symbolsOfLines_iff.mp hs
  obtain rfl : i = front.length := by
    rw [withEnd_line, line_of_read ht] at hline
    omega
  refine ⟨by simp, t, ?_, rfl⟩
  rw [declaredAt, List.take_left, List.getD_append_right _ _ _ _ (Nat.le_refl _), Nat.sub_self]
  exact ht

theorem exists_mem_of_declaredAt (hi : i < file.length) (ht : declaredAt file i = some t) :
    ∃ s ∈ symbolsOfLines file, s = { t with endLine := s.endLine } := by
  refine ⟨_, mem_symbolsOfLines_iff.mpr ⟨file.take i, file.getD i [], file.drop (i + 1), t,
    ?_, ?_, rfl⟩, rfl⟩
  · rw [List.getD_eq_getElem _ _ hi, List.getElem_cons_drop, List.take_append_drop]
  · rw [List.length_take_of_le (Nat.le_of_lt hi)]
    exact ht

/-- The depth has been above zero from behind the line of class `c` up to the line with
index `i`. -/
structure OpenAt (file : List (List Char)) (c : Symbol) (i : Nat) : Prop where
  mem : c ∈ symbolsOfLines file
  kind_eq : c.kind = .classType
  line_le : c.line ≤ i
  depth_pos : ∀ n : Nat, c.line ≤ n → n ≤ i → 0 < depthBehind file n

theorem OpenAt.openClass_eq (h : OpenAt file c i) (hi : i ≤ file.length) :
    (stateBehind (file.take i)).openClass = some c.name := by
  obtain ⟨hmem, hkind, hle, hpos⟩ := h
  obtain ⟨k, hline⟩ : ∃ k : Nat, c.line = k + 1 := by
    obtain ⟨n, raw, -, hdeclared⟩ := exists_isDeclaredBy hmem
    exact ⟨n, by rw [hdeclared.line_eq]; omega⟩
  obtain ⟨-, t, ht, hc⟩ := declaredAt_of_mem hmem hline
  have hclass : t.kind = .classType ∧ t.name = c.name := by
    rw [hc] at hkind
    exact ⟨hkind, by rw [hc]⟩
  have hki : k + 1 ≤ i := by omega
  -- the class opens on its own line and stays open from line to line
  induction i, hki using Nat.le_induction with
  | base =>
    have hdeep := hpos (k + 1) (by omega) (Nat.le_refl _)
    rw [depthBehind, stateBehind_take_succ hi] at hdeep
    rw [stateBehind_take_succ hi, openClass_read_of_class (nested_stateBehind _) ht hclass.1 hdeep,
      hclass.2]
  | succ i hki ih =>
    have hopen := ih (by omega) (by omega) fun n hn hni => hpos n hn (by omega)
    have hdeep := hpos (i + 1) (by omega) (Nat.le_refl _)
    rw [depthBehind, stateBehind_take_succ hi] at hdeep
    rw [stateBehind_take_succ hi, openClass_read_of_open (nested_stateBehind _) hopen hdeep]

theorem exists_openAt_of_openClass (hi : i ≤ file.length)
    (h : (stateBehind (file.take i)).openClass = some owner) :
    ∃ c, OpenAt file c i ∧ c.name = owner := by
  obtain ⟨before, header, between, t, hfront, ht, hkind, hname, hpos⟩ := exists_of_openClass h
  have hfile : file = before ++ header :: (between ++ file.drop i) := by
    rw [← List.cons_append, ← List.append_assoc, ← hfront, List.take_append_drop]
  have hlength : (file.take i).length = i := List.length_take_of_le hi
  have hbefore : before.length < i := by
    rw [← hlength, hfront]
    simp
  have hline := line_of_read ht
  refine ⟨_, ⟨mem_symbolsOfLines_iff.mpr ⟨before, header, _, t, hfile, ht, rfl⟩, hkind, ?_,
    fun n hn hni => ?_⟩, hname⟩
  · rw [withEnd_line, hline]
    omega
  · rw [withEnd_line, hline] at hn
    have hdeep := hpos n (by omega) (by omega)
    rwa [depthBehind, List.take_take, Nat.min_eq_left hni] at hdeep

/-- At depth one a line declares nothing but a member of the open class. -/
theorem declaredAt_of_depth_one (hdepth : depthBehind file i = 1) (hcode : (lineCode file i).1 ≠ [])
    (hmark : startsWith "@" (lineCode file i).1 = false)
    (himport : isImport (lineCode file i).1 = false) :
    declaredAt file i = (stateBehind (file.take i)).openClass.bind
    (member? (lineCode file i).1 (1 + i)) := by
  have hzero := (nested_stateBehind (file.take i)).openClassDepth_eq
  rw [depthBehind] at hdepth
  rw [lineCode] at hcode hmark himport ⊢
  rw [declaredAt]
  generalize file.getD i [] = raw at hcode hmark himport ⊢
  simp [State.read, hcode, declaration?, hmark, himport, hdepth, hzero]

/-- At depth one a line that looks like a member of `owner` is recorded as its method if `owner` is
open there. -/
theorem exists_method_iff (hi : i < file.length) (hdepth : depthBehind file i = 1)
    (hmark : startsWith "@" (lineCode file i).1 = false)
    (himport : isImport (lineCode file i).1 = false)
    (ht : member? (lineCode file i).1 (i + 1) owner = some t) :
    (∃ m ∈ symbolsOfLines file, m.line = i + 1 ∧ m.kind = .method ∧ m.name = t.name ∧
    m.parent = owner) ↔
      (stateBehind (file.take i)).openClass = some owner := by
  have hcode : (lineCode file i).1 ≠ [] := by
    intro hempty
    rw [hempty] at ht
    cases ht
  have hdeclared := declaredAt_of_depth_one hdepth hcode hmark himport
  rw [Nat.add_comm 1 i] at hdeclared
  constructor
  · rintro ⟨m, hm, hline, -, -, hparent⟩
    obtain ⟨-, s, hs, heq⟩ := declaredAt_of_mem hm hline
    rw [hdeclared] at hs
    obtain ⟨other, hopen, hmember⟩ := Option.bind_eq_some_iff.mp hs
    rw [heq] at hparent
    rw [hopen, ← (kind_of_member? hmember).2]
    exact congrArg some hparent
  · intro hopen
    rw [hopen, Option.bind_some, ht] at hdeclared
    obtain ⟨m, hm, heq⟩ := exists_mem_of_declaredAt hi hdeclared
    obtain ⟨hkind, hparent⟩ := kind_of_member? ht
    refine ⟨m, hm, ?_, ?_, ?_, ?_⟩
    · rw [heq]
      simpa using (isNamedIn_of_member? ht).line_eq
    · rw [heq]
      exact hkind
    · rw [heq]
    · rw [heq]
      exact hparent

/-! ## The lines of a class -/

theorem depthBehind_succ (hi : i < file.length) :
    depthBehind file (i + 1) = depthBehind file i + braceBalance (lineCode file i).1 := by
  rw [depthBehind, stateBehind_take_succ hi, read_depth]
  rfl

/-- A class whose own line opens its body is open up to its last line. -/
theorem openAt_of_opened {h : Nat} (hc : c ∈ symbolsOfLines file) (hkind : c.kind = .classType)
    (hline : c.line = h + 1) (halone : ReadsAlone file h)
    (hopened : 0 < depthBehind file (h + 1)) (hbehind : h < i) (hbefore : i < c.endLine) :
    OpenAt file c i := by
  have hzero := depthBehind_of_class hc hkind hline
  have hlength := endLine_le_length hc hline halone
  refine ⟨hc, hkind, by omega, fun n hn hni => ?_⟩
  have hhn : h + 1 ≤ n := by omega
  induction n, hhn using Nat.le_induction with
  | base => exact hopened
  | succ n hhn ih =>
    have hpos := ih (by omega) (by omega)
    by_contra hback
    -- the line that brings the depth back has code, and the class ends there
    have hcode : (lineCode file n).1 ≠ [] := by
      intro hempty
      rw [depthBehind_succ (by omega), hempty, braceBalance_nil, Int.add_zero] at hback
      exact hback hpos
    have hends : EndsAt file h n :=
      ((endsAt_of_opened (by omega)).mpr ⟨by omega, hcode, by omega⟩).2
    have hend := endLine_le_of_endsAt hc hline halone (by omega) (by omega) hends
    omega

end File

/-- A line one level inside of a class, behind the line of the class and in front of its last one,
that looks like a member is recorded as a method of the class exactly if the line of the class opens
the body itself, or if another class of the same name has been opened in between. This is so where
the line of the class reads alone, which it does unless it begins in a comment. -/
theorem method_of_class_iff (content : List UInt8) (c t : Symbol) (h i : Nat)
    (hc : c ∈ symbols content) (hkind : c.kind = .classType) (hline : c.line = h + 1)
    (hbehind : c.line < i + 1) (hbefore : i + 1 < c.endLine) :
    let file := lines (Utf8.decode content)
    let code := (lineCode file i).1
    ((stateBehind (file.take h)).inComment = false → ReadsAlone file h) ∧
    (ReadsAlone file h → depthBehind file i = 1 → startsWith "@" code = false →
      isImport code = false → member? code (i + 1) c.name = some t →
      ((∃ m ∈ symbols content, m.line = i + 1 ∧ m.kind = .method ∧ m.name = t.name ∧
        m.parent = c.name) ↔ 0 < depthBehind file (h + 1) ∨ ∃ b, OpenAt file b i ∧ b.name = c.name ∧
        c.line < b.line)) := by
  intro file code
  refine ⟨readsAlone_of_not_inComment, fun halone hdepth hmark himport ht => ?_⟩
  have hlength : c.endLine ≤ file.length := endLine_le_length hc hline halone
  have hi : i < file.length := by omega
  refine (exists_method_iff hi hdepth hmark himport ht).trans ⟨fun hopen => ?_, ?_⟩
  · obtain ⟨b, hb, hname⟩ := exists_openAt_of_openClass (Nat.le_of_lt hi) hopen
    rcases Int.lt_or_le c.line b.line with hlt | hle
    · exact Or.inr ⟨b, hb, hname, hlt⟩
    · exact Or.inl (hb.depth_pos (h + 1) (by omega) (by omega))
  · rintro (hopened | ⟨b, hb, hname, -⟩)
    · exact (openAt_of_opened hc hkind hline halone hopened (by omega)
        (by omega)).openClass_eq (Nat.le_of_lt hi)
    · rw [hb.openClass_eq (Nat.le_of_lt hi), hname]

/-- The body is opened at the end of a header with more than the name. The method stands behind a
block of its own. -/
theorem method_of_class_iff_extended :
    let content := Utf8.encode
      "class A extends B \x7b // \x7d\n  x = \x7b\n  \x7d\n  async m(a) \x7b\n  \x7d\n\x7d\n".toList
    ∃ c ∈ symbols content, c.kind = .classType ∧ c.line = 1 ∧ 4 < c.endLine ∧
      ∃ m ∈ symbols content, m.line = 4 ∧ m.kind = .method ∧ m.name = "m" ∧ m.parent = c.name := by
  intro content
  let file := lines (Utf8.decode content)
  obtain ⟨c, hc, hkind, hline, hend, hname⟩ :
      ∃ c ∈ symbols content, c.kind = .classType ∧ c.line = (0 : Nat) + 1 ∧
      (3 : Nat) + 1 < c.endLine ∧ c.name = "A" := by
    decide +kernel
  have hmember : (member? (lineCode file 3).1 (3 + 1) "A").map (·.name) = some "m" := by
    decide +kernel
  obtain ⟨t, ht, htname⟩ := Option.map_eq_some_iff.mp hmember
  have hopened : 0 < depthBehind file (0 + 1) := by decide +kernel
  have hiff := (method_of_class_iff content c t 0 3 hc hkind hline (by omega) hend).2
    (by decide +kernel) (by decide +kernel) (by decide +kernel) (by decide +kernel) (by rwa [hname])
  obtain ⟨m, hm, hmline, hmethod, hmname, hparent⟩ := hiff.mpr (Or.inl hopened)
  exact ⟨c, hc, hkind, hline, hend, m, hm, hmline, hmethod, hmname.trans htname, hparent⟩

/-- The header of the first class is continued behind `extends`, so that the class is no longer open
when its body begins, and its method is lost. The line of the second class begins in a comment with
a brace. The scan for its last line counts that brace, so the class extends over a call behind it,
where a line looks like a member. -/
theorem method_of_class_iff_lost :
    let continued := Utf8.encode "class A extends\nB \x7b\nm() \x7b\n\x7d\n\x7d\n".toList
    let hidden := Utf8.encode
      "/*\n\x7b */ class A \x7b\n\x7d\nf(function() \x7b\nm() \x7b\n\x7d\n\x7d)\n".toList
    (depthBehind (lines (Utf8.decode continued)) 2 = 1 ∧
      (member? (lineCode (lines (Utf8.decode continued)) 2).1 3 "A").isSome = true ∧
      (symbols continued).map (fun s => (s.name, s.kind, s.line, s.endLine, s.parent)) =
        [("A", .classType, 1, 5, "")]) ∧
    (depthBehind (lines (Utf8.decode hidden)) 4 = 1 ∧
      (member? (lineCode (lines (Utf8.decode hidden)) 4).1 5 "A").isSome = true ∧
      (symbols hidden).map (fun s => (s.name, s.kind, s.line, s.endLine, s.parent)) =
        [("A", .classType, 2, 8, "")]) := by
  decide +kernel

end CodeAtlas.Outline.Braced
