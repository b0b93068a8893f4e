import CodeAtlas.Proofs.Outline.Braced.Extent
import Mathlib.Data.List.Induction

/-! # Methods and their classes

A method belongs to the class whose body is open at its line. That class is the last one declared in
front of it, and the depth stays above zero from there on. The class ends where the depth comes back
to zero, and the method ends no later, unless its header is continued and the end of its body goes
unnoticed.
-/
namespace CodeAtlas.Outline.Braced
open Text

/-! ## Order of symbols -/

theorem pairwise_symbolsFrom (total : Nat) (st : State) (line : Nat) (file : List (List Char)) :
    (symbolsFrom total st line file).Pairwise fun s t => s.line < t.line := by
  induction file generalizing st line with
  | nil => exact List.Pairwise.nil
  | cons raw file ih =>
    rw [symbolsFrom_read]
    cases hfound : (st.read line raw).1 with
    | none => exact ih _ _
    | some s =>
      refine List.pairwise_cons.mpr ⟨fun t ht => ?_, ih _ _⟩
      obtain ⟨n, other, -, hdeclared⟩ := exists_isDeclaredBy ht
      rw [withEnd_line, line_of_read hfound, hdeclared.line_eq]
      omega

/-- Of two symbols the one on the earlier line stands first, and those in between are on the lines
in between. -/
theorem exists_between {file : List (List Char)} {s t : Symbol} (hs : s ∈ symbolsOfLines file)
    (ht : t ∈ symbolsOfLines file) (hlt : s.line < t.line) :
    ∃ earlier between later, symbolsOfLines file = earlier ++ s :: between ++ t :: later ∧
      ∀ u ∈ between, u ∈ symbolsOfLines file ∧ s.line < u.line ∧ u.line < t.line := by
  have hpairwise := pairwise_symbolsFrom file.length {} 1 file
  rw [← symbolsOfLines] at hpairwise
  obtain ⟨front, later, hcut⟩ := List.append_of_mem ht
  rw [hcut] at hpairwise hs ⊢
  obtain ⟨hfront, hlater, hcross⟩ := List.pairwise_append.mp hpairwise
  have hsfront : s ∈ front := by
    rcases List.mem_append.mp hs with h | h
    · exact h
    · rcases List.mem_cons.mp h with rfl | h
      · omega
      · have := (List.pairwise_cons.mp hlater).1 s h
        omega
  obtain ⟨earlier, between, rfl⟩ := List.append_of_mem hsfront
  refine ⟨earlier, between, later, rfl, fun u hu => ⟨by simp [hu], ?_, ?_⟩⟩
  · exact (List.pairwise_cons.mp (List.pairwise_append.mp hfront).2.1).1 u hu
  · exact hcross u (by simp [hu]) t (by simp)

/-! ## The class of a method -/

theorem openClass_opening {st : State} {found : Option Symbol} {owner : String}
    (h : (st.opening found).openClass = some owner) :
    (∃ t, found = some t ∧ t.kind = .classType ∧ t.name = owner) ∨ st.openClass = some owner := by
  cases found with
  | none => exact Or.inr h
  | some s =>
    by_cases hkind : s.kind = .classType
    · exact Or.inl ⟨s, rfl, hkind, by simpa [State.opening, hkind] using h⟩
    · exact Or.inr (by simpa [State.opening, hkind] using h)

/-- The class that is open behind a line is declared there, or it was open before. -/
theorem openClass_read {st : State} {line : Nat} {raw : List Char} {owner : String}
    (h : (st.read line raw).2.openClass = some owner) :
    (∃ t, (st.read line raw).1 = some t ∧ t.kind = .classType ∧ t.name = owner) ∨
      st.openClass = some owner := by
  by_cases hempty : (codeOf st.inComment raw).1 = []
  · exact Or.inr (by simpa [State.read, hempty] using h)
  · simp only [State.read, List.isEmpty_iff, hempty, if_false, State.advance] at h ⊢
    have hopen := openClass_opening (Option.ite_none_left_eq_some.mp h).2
    exact hopen

theorem depthBehind_append_left {front rest : List (List Char)} {n : Nat} (h : n ≤ front.length) :
    depthBehind (front ++ rest) n = depthBehind front n := by
  rw [depthBehind, depthBehind, List.take_append_of_le_length h]

theorem depthBehind_length (front : List (List Char)) :
    depthBehind front front.length = (stateBehind front).depth := by
  rw [depthBehind, List.take_length]

/-- The open class was declared by some line, and the depth has been above zero since then. -/
theorem exists_of_openClass {front : List (List Char)} {owner : String}
    (h : (stateBehind front).openClass = some owner) :
    ∃ before header between t, front = before ++ header :: between ∧
      ((stateBehind before).read (1 + before.length) header).1 = some t ∧
        t.kind = .classType ∧ t.name = owner ∧
      ∀ n, before.length < n → n ≤ front.length → 0 < depthBehind front n := by
  induction front using List.reverseRecOn with
  | nil => cases h
  | append_singleton front raw ih =>
    have hdepth : 0 < depthBehind (front ++ [raw]) (front ++ [raw]).length := by
      rw [depthBehind_length]
      refine (nested_stateBehind (front ++ [raw])).depth_pos ?_
      intro hnone
      rw [hnone] at h
      cases h
    rw [stateBehind, stateFrom_append, stateFrom_cons, stateFrom_nil] at h
    rcases openClass_read h with ⟨t, ht, hkind, hname⟩ | hopen
    · refine ⟨front, raw, [], t, rfl, ht, hkind, hname, fun n hlt hle => ?_⟩
      obtain rfl : n = (front ++ [raw]).length := by
        rw [List.length_append, List.length_singleton] at hle ⊢
        omega
      exact hdepth
    · obtain ⟨before, header, between, t, rfl, ht, hkind, hname, hpos⟩ := ih hopen
      refine ⟨before, header, between ++ [raw], t, by simp, ht, hkind, hname, fun n hlt hle => ?_⟩
      rcases Nat.lt_or_eq_of_le hle with hshort | rfl
      · rw [List.length_append, List.length_singleton] at hshort
        rw [depthBehind_append_left (Nat.le_of_lt_succ hshort)]
        exact hpos n hlt (Nat.le_of_lt_succ hshort)
      · exact hdepth

theorem code_of_read {st : State} {line : Nat} {raw : List Char} {t : Symbol}
    (h : (st.read line raw).1 = some t) : (codeOf st.inComment raw).1 ≠ [] := by
  intro hempty
  simp [State.read, hempty] at h

/-- A class is declared at depth zero. -/
theorem depthBehind_of_class {file : List (List Char)} {c : Symbol} {h : Nat}
    (hc : c ∈ symbolsOfLines file) (hkind : c.kind = .classType) (hline : c.line = h + 1) :
    depthBehind file h = 0 := by
  obtain ⟨front, raw, behind, t, rfl, ht, rfl⟩ := mem_symbolsOfLines_iff.mp hc
  obtain rfl : h = front.length := by
    rw [withEnd_line, line_of_read ht] at hline
    omega
  rw [depthBehind, List.take_left]
  exact depth_of_class (declaration?_of_read ht) hkind

/-- The line with index `h` declares class `c`, whose body is open in front of the line with index
`i`, which has the method `m`. -/
structure Encloses (file : List (List Char)) (c m : Symbol) (h i : Nat) : Prop where
  mem : c ∈ symbolsOfLines file
  kind_eq : c.kind = .classType
  name_eq : c.name = m.parent
  line_eq : c.line = h + 1
  inner_line_eq : m.line = i + 1
  lt : h < i
  code_ne_nil : (lineCode file i).1 ≠ []
  depth_pos : ∀ n, h < n → n ≤ i → 0 < depthBehind file n

theorem exists_encloses {file : List (List Char)} {m : Symbol} (hm : m ∈ symbolsOfLines file)
    (hkind : m.kind = .method) : ∃ c h i, Encloses file c m h i := by
  obtain ⟨front, raw, behind, t, rfl, ht, rfl⟩ := mem_symbolsOfLines_iff.mp hm
  rcases declaration?_cases (declaration?_of_read ht) with ⟨-, htop⟩ | ⟨-, owner, hopen, hmember⟩
  · exact (kind_of_topLevel? htop hkind).elim
  obtain ⟨before, header, between, u, hfront, hu, hclass, hname, hpos⟩ := exists_of_openClass hopen
  refine ⟨withEnd (front ++ raw :: behind).length (stateBehind before) (1 + before.length)
    (header :: (between ++ raw :: behind)) u, before.length, front.length, ?_, hclass, ?_,
      ?_, ?_, ?_, ?_, ?_⟩
  · refine mem_symbolsOfLines_iff.mpr ⟨before, header, between ++ raw :: behind, u, ?_, hu, rfl⟩
    rw [hfront, List.append_assoc, List.cons_append]
  · rw [withEnd_name, hname, withEnd_parent, (kind_of_member? hmember).2]
  · rw [withEnd_line, line_of_read hu]
    omega
  · rw [withEnd_line, line_of_read ht]
    omega
  · simp [hfront]
  · rw [lineCode_length]
    exact code_of_read ht
  · intro n hlt hle
    rw [depthBehind_append_left hle]
    exact hpos n hlt hle

/-- No other class is declared between a class and its method. -/
theorem Encloses.not_class {file : List (List Char)} {c m s : Symbol} {h i : Nat}
    (henc : Encloses file c m h i) (hs : s ∈ symbolsOfLines file) (hbehind : c.line < s.line)
    (hbefore : s.line < m.line) : s.kind ≠ .classType := by
  intro hkind
  rw [henc.line_eq] at hbehind
  rw [henc.inner_line_eq] at hbefore
  obtain ⟨n, hline⟩ : ∃ n : Nat, s.line = n + 1 := ⟨(s.line - 1).toNat, by omega⟩
  have hzero := depthBehind_of_class hs hkind hline
  have hpos := henc.depth_pos n (by omega) (by omega)
  omega

theorem Encloses.line_lt {file : List (List Char)} {c m : Symbol} {h i : Nat}
    (henc : Encloses file c m h i) : c.line < m.line := by
  have hhi := henc.lt
  rw [henc.line_eq, henc.inner_line_eq]
  omega

/-- In front of a method there is the class around it, with no other class in between. -/
theorem exists_class_before {file : List (List Char)} {m : Symbol} (hm : m ∈ symbolsOfLines file)
    (hkind : m.kind = .method) :
    ∃ earlier c between later h i, symbolsOfLines file = earlier ++ c :: between ++ m :: later ∧
      Encloses file c m h i ∧ ∀ s ∈ between, s.kind ≠ .classType := by
  obtain ⟨c, h, i, henc⟩ := exists_encloses hm hkind
  obtain ⟨earlier, between, later, hlist, hbetween⟩ := exists_between henc.mem hm henc.line_lt
  refine ⟨earlier, c, between, later, h, i, hlist, henc, fun s hs => ?_⟩
  obtain ⟨hmem, hbehind, hbefore⟩ := hbetween s hs
  exact henc.not_class hmem hbehind hbefore

/-! ## Ends of methods -/

/-- The line with index `i` is visibly continued, but up to the line with the given number none goes
deeper than that one began, and none ends in a semicolon. -/
def LeftOpen (file : List (List Char)) (i : Nat) (last : Int) : Prop :=
  isContinued (lineCode file i).1 = true ∧ ∀ j : Nat, i ≤ j → j < last →
    depthBehind file (j + 1) ≤ depthBehind file i ∧ endsWith ";" (lineCode file j).1 = false

theorem endLine_le_length {file : List (List Char)} {s : Symbol} {i : Nat}
    (hs : s ∈ symbolsOfLines file) (hline : s.line = i + 1) (halone : ReadsAlone file i) :
    s.endLine ≤ file.length := by
  rcases endLine_cases hs hline halone with ⟨j, -, hlt, -, -, hend⟩ | ⟨-, hend⟩ <;> omega

/-- Where the depth comes back behind a line, the declaration on that line has ended, or it was
left open. -/
theorem exists_endsAt_iff {file : List (List Char)} {i e : Nat} (hie : i ≤ e)
    (hcode : (lineCode file i).1 ≠ []) (hend : (lineCode file e).1 ≠ [])
    (hback : depthBehind file (e + 1) ≤ depthBehind file i) :
    (∃ j, i ≤ j ∧ j ≤ e ∧ EndsAt file i j) ↔ ¬ LeftOpen file i (e + 1) := by
  constructor
  · rintro ⟨j, hij, hje, -, -, hstop⟩ ⟨hcontinued, hopen⟩
    rcases hstop with ⟨m, him, hmj, hdeep⟩ | hsemicolon | ⟨rfl, hwhole⟩
    · have hshallow := (hopen m him (by omega)).1
      omega
    · simp [(hopen j hij (by omega)).2] at hsemicolon
    · simp [hcontinued] at hwhole
  · intro hclosed
    by_contra hnone
    have hdeep (j : Nat) (hij : i ≤ j) (hje : j ≤ e) :
        depthBehind file (j + 1) ≤ depthBehind file i := by
      by_contra hdeep
      have hlt : j < e := by
        refine Nat.lt_of_le_of_ne hje ?_
        rintro rfl
        exact hdeep hback
      exact hnone ⟨e, hie, Nat.le_refl e, hend, hback, Or.inl ⟨j, hij, hlt, Int.not_le.mp hdeep⟩⟩
    have hsemicolon (j : Nat) (hij : i ≤ j) (hje : j ≤ e) :
        endsWith ";" (lineCode file j).1 = false := by
      by_contra htrue
      have hsome : (lineCode file j).1 ≠ [] := by
        intro hempty
        rw [hempty] at htrue
        exact htrue rfl
      exact hnone ⟨j, hij, hje, hsome, hdeep j hij hje, Or.inr (Or.inl (by simpa using htrue))⟩
    have hcontinued : isContinued (lineCode file i).1 = true := by
      by_contra hwhole
      refine hnone ⟨i, Nat.le_refl i, hie, hcode, hdeep i (Nat.le_refl i) hie,
        Or.inr (Or.inr ⟨rfl, ?_⟩)⟩
      simpa using hwhole
    exact hclosed ⟨hcontinued, fun j hij hje =>
      ⟨hdeep j hij (by omega), hsemicolon j hij (by omega)⟩⟩

theorem endLine_le_of_endsAt {file : List (List Char)} {s : Symbol} {i j : Nat}
    (hs : s ∈ symbolsOfLines file) (hline : s.line = i + 1) (halone : ReadsAlone file i)
    (hij : i ≤ j) (hj : j < file.length) (hends : EndsAt file i j) : s.endLine ≤ j + 1 := by
  rcases endLine_cases hs hline halone with ⟨k, -, -, -, hfirst, hend⟩ | ⟨hnone, -⟩
  · have hkj : k ≤ j := by
      by_contra hlt
      exact hfirst j hij (by omega) hends
    omega
  · exact absurd hends (hnone j hij hj)

/-- A symbol ends no later than a line if it has ended up to there. -/
theorem endLine_le_iff {file : List (List Char)} {s : Symbol} {i e : Nat}
    (hs : s ∈ symbolsOfLines file) (hline : s.line = i + 1) (halone : ReadsAlone file i)
    (hlast : e + 1 < file.length) : s.endLine ≤ e + 1 ↔ ∃ j, i ≤ j ∧ j ≤ e ∧ EndsAt file i j := by
  constructor
  · intro hle
    rcases endLine_cases hs hline halone with ⟨j, hij, -, hends, -, hend⟩ | ⟨-, hend⟩
    · exact ⟨j, hij, by omega, hends⟩
    · omega
  · rintro ⟨j, hij, hje, hends⟩
    have hend := endLine_le_of_endsAt hs hline halone hij (by omega) hends
    omega

/-- A class around a method ends where the depth is back at zero, which is not in front of
the method. -/
theorem Encloses.endLine_cases {file : List (List Char)} {c m : Symbol} {h i : Nat}
    (henc : Encloses file c m h i) (halone : ReadsAlone file h) :
    (∃ e, i ≤ e ∧ e < file.length ∧ (lineCode file e).1 ≠ [] ∧ depthBehind file (e + 1) ≤ 0 ∧
      c.endLine = e + 1) ∨ c.endLine = file.length := by
  have hzero := depthBehind_of_class henc.mem henc.kind_eq henc.line_eq
  have hopened : depthBehind file h < depthBehind file (h + 1) := by
    rw [hzero]
    exact henc.depth_pos (h + 1) (Nat.lt_succ_self h) henc.lt
  rcases Braced.endLine_cases henc.mem henc.line_eq halone with
    ⟨e, hle, hlt, hends, -, hend⟩ | ⟨-, hend⟩
  · obtain ⟨hbehind, hcode, hback⟩ := (endsAt_of_opened hopened).mp ⟨hle, hends⟩
    rw [hzero] at hback
    refine Or.inl ⟨e, ?_, hlt, hcode, hback, hend⟩
    by_contra hbefore
    have hpos := henc.depth_pos (e + 1) (by omega) (by omega)
    omega
  · exact Or.inr hend

/-- A method ends no later than its class, unless it is left open there. -/
theorem Encloses.endLine_le_iff {file : List (List Char)} {c m : Symbol} {h i : Nat}
    (henc : Encloses file c m h i) (hm : m ∈ symbolsOfLines file) (halone : ReadsAlone file h)
    (hinner : ReadsAlone file i) :
    m.endLine ≤ c.endLine ↔ ¬ (LeftOpen file i c.endLine ∧ c.endLine < file.length) := by
  have hlength := endLine_le_length hm henc.inner_line_eq hinner
  by_cases hlast : c.endLine < file.length
  · rcases henc.endLine_cases halone with ⟨e, hie, -, hcode, hback, hend⟩ | hend
    · have hpos := henc.depth_pos i henc.lt (Nat.le_refl i)
      rw [hend] at hlast
      rw [hend, Braced.endLine_le_iff hm henc.inner_line_eq hinner (by omega),
        exists_endsAt_iff hie henc.code_ne_nil hcode (by omega)]
      simp only [hlast, and_true]
    · omega
  · have hend : file.length ≤ c.endLine := Int.not_lt.mp hlast
    simp only [hlast, and_false, not_false_eq_true, iff_true]
    omega

/-- In front of each method there is its class, with no other class in between. Where their lines
read alone, the method ends no later than the class does, except if its header is continued and, up
to the end of the class, no line is left inside of a deeper block and none ends in a semicolon; then
it ends behind the class if there is a line behind the class. -/
theorem method_within_class (content : List UInt8) (m : Symbol) (hm : m ∈ symbols content)
    (hkind : m.kind = .method) :
    let file := lines (Utf8.decode content)
    ∃ (earlier : List Symbol) (c : Symbol) (between later : List Symbol) (h i : Nat),
      symbols content = earlier ++ c :: between ++ m :: later ∧
      c.kind = .classType ∧ c.name = m.parent ∧ (∀ s ∈ between, s.kind ≠ .classType) ∧
      c.line = h + 1 ∧ m.line = i + 1 ∧ c.line ≤ m.line ∧
      (ReadsAlone file h → ReadsAlone file i →
        (m.endLine ≤ c.endLine ↔ ¬ (LeftOpen file i c.endLine ∧ c.endLine < file.length))) := by
  intro file
  obtain ⟨earlier, c, between, later, h, i, hlist, henc, hbetween⟩ := exists_class_before hm hkind
  exact ⟨earlier, c, between, later, h, i, hlist, henc.kind_eq, henc.name_eq, hbetween,
    henc.line_eq, henc.inner_line_eq, Int.le_of_lt henc.line_lt, henc.endLine_le_iff hm⟩

/-- The header of the method is continued, and the line that opens its body is noticed. -/
theorem method_within_class_continued :
    let content := Utf8.encode "class A \x7b\nm(a,\nb) \x7b\n\x7d\n\x7d\nlet x\n".toList
    ∃ m ∈ symbols content, m.kind = .method ∧
      ∃ c ∈ symbols content, c.name = m.parent ∧ c.line ≤ m.line ∧ m.endLine ≤ c.endLine := by
  intro content
  obtain ⟨m, hm, hkind, hline⟩ : ∃ m ∈ symbols content, m.kind = .method ∧
      m.line = 2 := by decide +kernel
  refine ⟨m, hm, hkind, ?_⟩
  obtain ⟨earlier, c, between, later, h, i, hlist, hclass, hname, -, hcline, hmline, hle, hend⟩ :=
    method_within_class content m hm hkind
  have hc : c ∈ symbols content := by simp [hlist]
  have hclose : ∀ s ∈ symbols content, s.kind = .classType → s.endLine = 5 := by decide +kernel
  have halone : ∀ n ≤ 1, ReadsAlone (lines (Utf8.decode content)) n := by decide +kernel
  have hdeep :
      ¬ depthBehind (lines (Utf8.decode content)) (2 + 1) ≤
      depthBehind (lines (Utf8.decode content)) 1 := by
    decide +kernel
  obtain rfl : i = 1 := by omega
  refine ⟨c, hc, hname, hle, (hend (halone h (by omega)) (halone 1 (Nat.le_refl 1))).mpr
    fun hopen => hdeep ?_⟩
  exact (hopen.1.2 2 (by decide) (by rw [hclose c hc hclass]; decide)).1

/-- The body of the first method is opened and closed on the line that ends its header. The depth
behind that line is what it was, so the end goes unnoticed, and the method ends behind its class.
The second method ends behind its class because the line of the class, which begins in a comment,
does not read alone. -/
theorem method_within_class_left_open :
    let bodied := Utf8.encode "class A \x7b\nm(a,\nb) \x7b return a \x7d\n\x7d\nlet x = 1;\n".toList
    let hidden := Utf8.encode "/*\nit's */ class A \x7b\nm() \x7b\n\x7d\n\x7d\n".toList
    (symbols bodied).map (fun s => (s.name, s.kind, s.line, s.endLine, s.parent)) =
      [("A", .classType, 1, 4, ""), ("m", .method, 2, 5, "A"), ("x", .constant, 5, 5, "")] ∧
    (symbols hidden).map (fun s => (s.name, s.kind, s.line, s.endLine, s.parent)) =
      [("A", .classType, 2, 2, ""), ("m", .method, 3, 4, "A")] := by
  decide +kernel

end CodeAtlas.Outline.Braced
