import CodeAtlas.Proofs.Outline.Braced.Extent
import Mathlib.Data.List.Forall2

/-! # Files that come to the same

What the symbols of a file are, but for the text that is shown for them, depends on little of each
line: what its code declares, and what a scan for the end of a declaration takes from it. Two files
that agree in this have symbols that match one by one.
-/
namespace CodeAtlas.Outline.Braced
open Text

/-- Two raw lines come to the same, as far as headings and extents go. -/
structure Alike (inComment : Bool) (raw raw' : List Char) : Prop where
  glance_eq : glance (codeOf inComment raw) = glance (codeOf inComment raw')
  heading_eq : ∀ st line, (declaration? st (codeOf inComment raw).1 line).map heading =
    (declaration? st (codeOf inComment raw').1 line).map heading

theorem opening_congr (st : State) {found found' : Option Symbol}
    (h : found.map heading = found'.map heading) : st.opening found = st.opening found' := by
  cases found with
  | none => rw [Option.map_eq_none_iff.mp h.symm]
  | some s =>
    obtain ⟨s', rfl, hs⟩ := Option.map_eq_some_iff.mp h.symm
    simp only [heading, Prod.mk.injEq] at hs
    simp only [State.opening, hs.1, hs.2.1]

/-- One line: the same heading, and the same state behind it. -/
theorem Alike.read_eq (st : State) {raw raw' : List Char} (h : Alike st.inComment raw raw')
    (line : Nat) : (st.read line raw).1.map heading = (st.read line raw').1.map heading ∧
      (st.read line raw).2 = (st.read line raw').2 := by
  obtain ⟨hempty, hbalance, -, -, hcomment⟩ := Glance.mk.inj h.glance_eq
  have hheading := h.heading_eq { st with inComment := (codeOf st.inComment raw').2 } line
  simp only [State.read, hempty, hcomment]
  split
  · exact ⟨rfl, rfl⟩
  · refine ⟨hheading, ?_⟩
    simp only [State.advance, hbalance, opening_congr _ hheading]

section Files
variable {front behind : List (List Char)} {raw raw' : List Char}

theorem map_heading_symbolsFrom (total : Nat) (st : State) (line : Nat) (raw : List Char)
    (rest : List (List Char)) :
    (symbolsFrom total st line (raw :: rest)).map heading =
    ((st.read line raw).1.map heading).toList ++
      (symbolsFrom total (st.read line raw).2 (line + 1) rest).map heading := by
  rw [symbolsFrom_read, List.map_append]
  cases (st.read line raw).1 with
  | none => rfl
  | some s => simp

/-- All lines: the same headings. -/
theorem Alike.map_heading_eq {st : State} {line : Nat}
    (h : Alike (stateFrom st line front).inComment raw raw') (total : Nat) :
    (symbolsFrom total st line (front ++ raw :: behind)).map heading =
      (symbolsFrom total st line (front ++ raw' :: behind)).map heading := by
  induction front generalizing st line with
  | nil =>
    obtain ⟨hheading, hstate⟩ := Alike.read_eq st h line
    simp only [List.nil_append, map_heading_symbolsFrom, hheading, hstate]
  | cons first front ih =>
    simp only [List.cons_append, map_heading_symbolsFrom]
    rw [ih h]

theorem Alike.stateBehind_take_eq (h : Alike (stateBehind front).inComment raw raw') (n : Nat) :
    stateBehind ((front ++ raw :: behind).take n) =
      stateBehind ((front ++ raw' :: behind).take n) := by
  rcases Nat.lt_or_ge front.length n with hlt | hle
  · obtain ⟨k, rfl⟩ : ∃ k, n = front.length + (k + 1) := ⟨n - front.length - 1, by omega⟩
    have hread := (Alike.read_eq (stateFrom {} 1 front) h (1 + front.length)).2
    simp only [List.take_length_add_append, List.take_succ_cons, stateBehind, stateFrom_append,
      stateFrom_cons, hread]
  · rw [List.take_append_of_le_length hle, List.take_append_of_le_length hle]

theorem Alike.glance_lineCode_eq (h : Alike (stateBehind front).inComment raw raw') (n : Nat) :
    glance (lineCode (front ++ raw :: behind) n) =
      glance (lineCode (front ++ raw' :: behind) n) := by
  by_cases hn : n = front.length
  · subst hn
    rw [lineCode_length, lineCode_length, h.glance_eq]
  · have hget : (front ++ raw :: behind).getD n [] = (front ++ raw' :: behind).getD n [] := by
      rw [List.getD_eq_getElem?_getD, List.getD_eq_getElem?_getD]
      rcases Nat.lt_or_ge n front.length with hlt | hge
      · rw [List.getElem?_append_left hlt, List.getElem?_append_left hlt]
      · obtain ⟨k, rfl⟩ : ∃ k, n = front.length + (k + 1) := ⟨n - front.length - 1, by omega⟩
        simp [List.getElem?_append_right]
    rw [lineCode, lineCode, hget, h.stateBehind_take_eq]

theorem Alike.endsAt_iff (h : Alike (stateBehind front).inComment raw raw') (i j : Nat) :
    EndsAt (front ++ raw :: behind) i j ↔ EndsAt (front ++ raw' :: behind) i j := by
  have hdepth (n : Nat) :
      depthBehind (front ++ raw :: behind) n = depthBehind (front ++ raw' :: behind) n := by
    rw [depthBehind, depthBehind, h.stateBehind_take_eq]
  have hglance : glance (lineCode (front ++ raw :: behind) j) = _ := h.glance_lineCode_eq j
  obtain ⟨hempty, -, hterminated, hcontinued, -⟩ := Glance.mk.inj hglance
  have hcode : (lineCode (front ++ raw :: behind) j).1 ≠ [] ↔
      (lineCode (front ++ raw' :: behind) j).1 ≠ [] := by
    rw [ne_eq, ne_eq, ← List.isEmpty_iff, ← List.isEmpty_iff, hempty]
  simp only [EndsAt, hdepth, hcode, hterminated, hcontinued]

/-- Two symbols have the same heading, and the same extent if their line reads alone in
either file. -/
structure Matches (file file' : List (List Char)) (s s' : Symbol) : Prop where
  heading_eq : heading s = heading s'
  endLine_eq : ∀ i : Nat, s.line = i + 1 → ReadsAlone file i → ReadsAlone file' i →
    s.endLine = s'.endLine

theorem Alike.endLine_eq (h : Alike (stateBehind front).inComment raw raw') {s s' : Symbol}
    {i : Nat} (hs : s ∈ symbolsOfLines (front ++ raw :: behind))
    (hs' : s' ∈ symbolsOfLines (front ++ raw' :: behind)) (hline : s.line = i + 1)
    (hline' : s'.line = i + 1) (halone : ReadsAlone (front ++ raw :: behind) i)
    (halone' : ReadsAlone (front ++ raw' :: behind) i) : s.endLine = s'.endLine := by
  have hlength : (front ++ raw :: behind).length = (front ++ raw' :: behind).length := by simp
  rcases endLine_cases hs hline halone with ⟨j, hij, hj, hends, hfirst, hend⟩ | ⟨hnone, hend⟩
  · rcases endLine_cases hs' hline' halone' with ⟨k, hik, hk, hends', hfirst', hend'⟩ | ⟨hnone', -⟩
    · have hle : ¬ j < k := fun hlt => hfirst' j hij hlt ((h.endsAt_iff i j).mp hends)
      have hge : ¬ k < j := fun hlt => hfirst k hik hlt ((h.endsAt_iff i k).mpr hends')
      omega
    · exact absurd ((h.endsAt_iff i j).mp hends) (hnone' j hij (hlength ▸ hj))
  · rcases endLine_cases hs' hline' halone' with ⟨k, hik, hk, hends', -, -⟩ | ⟨-, hend'⟩
    · exact absurd ((h.endsAt_iff i k).mpr hends') (hnone k hik (hlength ▸ hk))
    · rw [hend, hend', hlength]

/-- The symbols of two files that are alike match one by one. -/
theorem Alike.forall₂_matches (h : Alike (stateBehind front).inComment raw raw') :
    List.Forall₂ (Matches (front ++ raw :: behind) (front ++ raw' :: behind))
      (symbolsOfLines (front ++ raw :: behind)) (symbolsOfLines (front ++ raw' :: behind)) := by
  have hlength : (front ++ raw :: behind).length = (front ++ raw' :: behind).length := by simp
  have hmap : (symbolsOfLines (front ++ raw :: behind)).map heading =
      (symbolsOfLines (front ++ raw' :: behind)).map heading := by
    rw [symbolsOfLines, symbolsOfLines, hlength]
    exact h.map_heading_eq _
  have hheadings :
      List.Forall₂ (fun s s' => heading s = heading s') (symbolsOfLines (front ++ raw :: behind))
      (symbolsOfLines (front ++ raw' :: behind)) := by
    rw [← List.forall₂_map_right_iff, ← List.forall₂_map_left_iff, hmap, List.forall₂_eq_eq_eq]
  obtain ⟨hcount, hzipped⟩ := List.forall₂_iff_zip.mp hheadings
  refine List.forall₂_iff_zip.mpr ⟨hcount, fun {s s'} hzip => ?_⟩
  obtain ⟨hs, hs'⟩ := List.of_mem_zip hzip
  have hheading := hzipped hzip
  have hline : s.line = s'.line := congrArg (fun p => p.2.2.1) hheading
  exact ⟨hheading, fun i hi halone halone' => h.endLine_eq hs hs' hi (hline ▸ hi) halone halone'⟩

end Files

end CodeAtlas.Outline.Braced
