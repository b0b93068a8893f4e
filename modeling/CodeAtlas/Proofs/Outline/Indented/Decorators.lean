import CodeAtlas.Proofs.Outline.Indented.Concatenation
import Mathlib.Data.List.DropRight
import Mathlib.Order.Bounds.Defs

/-! # Decorators of Python declarations

Decorators are gathered from line to line until a declaration takes them or another line drops them.
What has been gathered in front of a line is the longest run of decorator lines that ends there,
whatever stands above the run. So the decorators of a declaration are those that touch it.
-/
namespace CodeAtlas.Outline.Indented
open Text

/-- A line with an at sign and, right behind it, a character that is no white space. -/
def IsDecoratorLine (raw : List Char) : Prop :=
  ∃ c rest, trim raw = '@' :: c :: rest ∧ isBlank c = false

/-- All lines from index `j` on hold decorators, up to the line in front of the one with
index `k`. -/
def DecoratedFrom (file : List (List Char)) (k j : Nat) : Prop :=
  j ≤ k ∧ ∀ i raw, j ≤ i → i < k → file[i]? = some raw → IsDecoratorLine raw

/-- The trimmed lines from index `j` to index `k`, one below the other. -/
def joined (file : List (List Char)) (j k : Nat) : List Char :=
  ['\n'].intercalate (((file.take (k + 1)).drop j).map trim)

/-! ## One line -/

section Line
variable {st : State} {line : Nat} {raw text : List Char} {openClass : Option String}
  {decorators : List (List Char)} {column : Nat} {s : Symbol}

theorem isDecoratorLine_iff : IsDecoratorLine raw ↔ isDecorator (trim raw) = true := by
  unfold IsDecoratorLine isDecorator
  split
  next c rest htext => simp [htext]
  next hnone =>
    refine iff_of_false ?_ Bool.false_ne_true
    rintro ⟨c, rest, htext, -⟩
    exact hnone c rest htext

theorem isSkippable_of_isDecorator (h : isDecorator text = true) : isSkippable text = false := by
  unfold isDecorator at h
  split at h
  · rfl
  · cases h

/-- A decorator is put behind those above it; any other line leaves none. -/
theorem decorators_read_eq (st : State) (line : Nat) (raw : List Char) :
    (st.read line raw).2.decorators =
    if isDecorator (trim raw) then st.decorators ++ [trim raw] else [] := by
  cases h : isDecorator (trim raw) with
  | false => exact decorators_read st line raw h
  | true => simp [State.read, isSkippable_of_isDecorator h, h]

/-- A constant shows its line alone, and other symbols show the decorators above it. -/
theorem signature_of_declaration?
    (h : declaration? openClass decorators column text line = some s) :
    (s.kind = .constant ∧ s.signature = String.ofList text) ∨
      (s.kind = .function ∨ s.kind = .method ∨ s.kind = .classType) ∧
        s.signature = String.ofList (['\n'].intercalate (decorators ++ [text])) := by
  unfold declaration? at h
  split at h
  next name hclass =>
    obtain rfl := Option.some.inj h
    exact .inr ⟨.inr (.inr rfl), rfl⟩
  next =>
    split at h
    next name hfunction =>
      split at h
      · obtain rfl := Option.some.inj h
        exact .inr ⟨.inl rfl, rfl⟩
      · obtain ⟨parent, -, rfl⟩ := Option.map_eq_some_iff.mp h
        exact .inr ⟨.inr (.inl rfl), rfl⟩
    next =>
      obtain ⟨name, -, rfl⟩ := Option.map_eq_some_iff.mp (Option.ite_none_right_eq_some.mp h).2
      exact .inl ⟨rfl, rfl⟩

theorem declaration?_of_read (h : (st.read line raw).1 = some s) :
    declaration? (st.classAt (indent raw) (trim raw)) st.decorators (indent raw) (trim raw)
      line = some s := by
  simp only [State.read] at h
  split at h
  · cases h
  · split at h
    · cases h
    · split at h
      · cases h
      next hfound => exact hfound.trans h

end Line

/-! ## Many lines -/

/-- The state behind some lines, of which `line` is the number of the first. -/
def stateFrom : State → (line : Nat) → List (List Char) → State
  | st, _, [] => st
  | st, line, raw :: rest => stateFrom (st.read line raw).2 (line + 1) rest

theorem stateFrom_concat (st : State) (line : Nat) (front : List (List Char)) (raw : List Char) :
    stateFrom st line (front ++ [raw]) =
      ((stateFrom st line front).read (line + front.length) raw).2 := by
  induction front generalizing st line with
  | nil => rfl
  | cons first front ih => simp [stateFrom, ih, Nat.add_assoc, Nat.add_comm 1]

/-- Every symbol is declared by a line, in the state behind the lines in front of it. -/
theorem exists_read_of_mem {st : State} {line : Nat} {file : List (List Char)} {s : Symbol}
    (h : s ∈ symbolsFrom st line file) : ∃ before raw behind t, file = before ++ raw :: behind ∧
      ((stateFrom st line before).read (line + before.length) raw).1 = some t ∧
      s = withEnd (line + before.length) raw behind t := by
  induction file generalizing st line with
  | nil => cases h
  | cons first file ih =>
    rw [symbolsFrom_read, List.mem_append, Option.mem_toList, Option.map_eq_some_iff] at h
    rcases h with ⟨t, ht, rfl⟩ | h
    · exact ⟨[], first, file, t, rfl, ht, rfl⟩
    · obtain ⟨before, raw, behind, t, rfl, ht, rfl⟩ := ih h
      rw [Nat.add_assoc, Nat.add_comm 1] at ht ⊢
      exact ⟨first :: before, raw, behind, t, rfl, ht, rfl⟩

/-- What has been gathered behind some lines is the run of decorators at their end. -/
theorem decorators_stateFrom (line : Nat) (front : List (List Char)) :
    (stateFrom {} line front).decorators = (front.rtakeWhile fun raw =>
      isDecorator (trim raw)).map trim := by
  induction front using List.reverseRecOn with
  | nil => rfl
  | append_singleton front raw ih =>
    rw [stateFrom_concat, decorators_read_eq, ih, List.rtakeWhile_concat]
    split <;> simp

/-- The run of decorators at the end of some lines begins at the least index from which on there are
only decorators. -/
theorem exists_isLeast_decoratedFrom (front rest : List (List Char)) :
    ∃ j, IsLeast {j | DecoratedFrom (front ++ rest) front.length j} j ∧
      front.rtakeWhile (fun raw => isDecorator (trim raw)) = front.drop j := by
  have hcut : front.rdropWhile _ ++ front.rtakeWhile (fun raw => isDecorator (trim raw)) = front :=
    List.rdropWhile_append_rtakeWhile
  have hlast := List.rdropWhile_last_not (fun raw => isDecorator (trim raw)) front
  have hrun :
      ∀ raw ∈ front.rtakeWhile (fun raw => isDecorator (trim raw)), isDecorator (trim raw) = true :=
    fun raw => List.mem_rtakeWhile_imp
  generalize front.rdropWhile (fun raw => isDecorator (trim raw)) = above at hcut hlast
  generalize front.rtakeWhile (fun raw => isDecorator (trim raw)) = run at hcut hrun
  subst hcut
  refine ⟨above.length, ⟨⟨by simp, fun i raw hj hi hraw => ?_⟩, fun j hj => ?_⟩, by simp⟩
  · rw [List.append_assoc, List.getElem?_append_right hj,
      List.getElem?_append_left (by simp at hi; omega)] at hraw
    exact isDecoratorLine_iff.mpr (hrun raw (List.mem_of_getElem? hraw))
  · -- the line above the run holds no decorator, so no run with that line begins before it
    by_contra hlt
    have hne : above ≠ [] := by
      rintro rfl
      exact hlt (Nat.zero_le j)
    refine hlast hne (isDecoratorLine_iff.mp (hj.2 (above.length - 1) _ (by omega) ?_ ?_))
    · have hpos := List.length_pos_iff.mpr hne
      simp only [List.length_append]
      omega
    · have hpos := List.length_pos_iff.mpr hne
      rw [List.append_assoc, List.getElem?_append_left (by omega), List.getLast_eq_getElem]
      exact List.getElem?_eq_getElem _

/-- A function, a method or a class shows the decorators that touch it from above: all the lines
between the last line that holds no decorator and its own. A constant shows its line alone. -/
theorem signature_eq_joined (content : List UInt8) (s : Symbol) (hs : s ∈ symbols content) :
    let file := lines (Utf8.decode content)
    ∃ (k : Nat) (raw : List Char), file[k]? = some raw ∧ s.line = k + 1 ∧
      ((s.kind = .constant ∧ s.signature = String.ofList (trim raw)) ∨
        (s.kind = .function ∨ s.kind = .method ∨ s.kind = .classType) ∧
          ∃ j, IsLeast {j | DecoratedFrom file k j} j ∧
            s.signature = String.ofList (joined file j k)) := by
  intro file
  obtain ⟨before, raw, behind, t, hfile, ht, rfl⟩ := exists_read_of_mem hs
  have hdeclared := declaration?_of_read ht
  have hline : (withEnd (1 + before.length) raw behind t).line = before.length + 1 := by
    have := (declaration?_cases hdeclared).1
    simp only [withEnd]
    omega
  obtain ⟨j, hleast, hrun⟩ := exists_isLeast_decoratedFrom before (raw :: behind)
  have hgathered : (stateFrom {} 1 before).decorators ++ [trim raw] =
      (((before ++ raw :: behind).take (before.length + 1)).drop j).map trim := by
    have hj : j ≤ before.length := hleast.1.1
    rw [decorators_stateFrom, hrun, List.take_length_add_append, List.drop_append_of_le_length hj]
    simp
  rw [show file = before ++ raw :: behind from hfile]
  refine ⟨before.length, raw, by simp, hline, (signature_of_declaration? hdeclared).imp_right ?_⟩
  rintro ⟨hkind, hsignature⟩
  refine ⟨hkind, j, hleast, ?_⟩
  rw [joined, ← hgathered]
  exact hsignature

/-- A decorator above a blank line belongs to nothing, and neither do those above a constant. The
method has two, of which the second is indented deeper. -/
theorem signature_eq_joined_stacked :
    let content :=
      Utf8.encode "@lost\n\n@d\nA = 1\nclass B:\n  @e\n    @f(1)\n  async def g(): pass\n".toList
    let file := lines (Utf8.decode content)
    (symbols content).map (fun s => (s.line, s.signature)) =
        [(4, "A = 1"), (5, "class B:"), (8, "@e\n@f(1)\nasync def g(): pass")] ∧
      ∃ s ∈ symbols content, s.name = "g" ∧ ∃ j, IsLeast {j | DecoratedFrom file 7 j} j ∧
        s.signature = String.ofList (joined file j 7) := by
  intro content file
  obtain ⟨s, hs, hname, hline, hkind⟩ :
      ∃ s ∈ symbols content, s.name = "g" ∧ s.line = 8 ∧ s.kind ≠ .constant := by decide +kernel
  obtain ⟨k, raw, -, hk, ⟨hconstant, -⟩ | ⟨-, hsignature⟩⟩ := signature_eq_joined content s hs
  · exact absurd hconstant hkind
  · obtain rfl : k = 7 := by omega
    exact ⟨by decide +kernel, s, hs, hname, hsignature⟩

end CodeAtlas.Outline.Indented
