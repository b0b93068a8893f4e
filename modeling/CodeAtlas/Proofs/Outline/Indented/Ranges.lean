import CodeAtlas.Proofs.Impact.Enclosing
import CodeAtlas.Proofs.Outline.Indented.Declaration
import Mathlib.Data.List.Pairwise

/-! # Ranges of Python symbols

The last line of each symbol is found by a scan of its own. Two such scans agree as far as they
overlap: the scan from an inner line sees the same lines as that from an outer one and stops at the
latest where that one does. So the ranges of two symbols are nested or have no line in common, and
the innermost symbol around a line is the one that starts last.
-/
namespace CodeAtlas.Outline.Indented
open Text

/-! ## Ends of blocks -/

section BlockEnd
variable {base last line : Nat}

theorem le_blockEndFrom (base : Nat) (h : last < line) (rest : List (List Char)) :
    last ≤ blockEndFrom base last line rest := by
  induction rest generalizing last line with
  | nil => exact Nat.le_refl last
  | cons raw rest ih =>
    rw [blockEndFrom]
    split
    · exact Nat.le_refl last
    · split
      · exact ih (Nat.lt_succ_of_lt h)
      · exact (Nat.le_of_lt h).trans (ih (Nat.lt_succ_self line))

theorem blockEndFrom_lt (base : Nat) (h : last < line) (rest : List (List Char)) :
    blockEndFrom base last line rest < line + rest.length := by
  induction rest generalizing last line with
  | nil => exact h
  | cons raw rest ih =>
    rw [blockEndFrom, List.length_cons]
    split
    · omega
    · have hnext : (if isSkippable (trim raw) then last else line) < line + 1 := by
        split <;> omega
      have := ih hnext
      omega

theorem endsBlock_mono {raw : List Char} {deeper : Nat} (hbase : base ≤ deeper)
    (h : endsBlock base raw = true) : endsBlock deeper raw = true := by
  simp only [endsBlock, Bool.and_eq_true, decide_eq_true_eq] at h ⊢
  exact ⟨⟨h.1.1, h.1.2.trans hbase⟩, h.2⟩

/-- The block of a line that is indented deeper ends no later, if both are looked at from the
same place. -/
theorem blockEndFrom_mono {deeper : Nat} (hbase : base ≤ deeper) (h : last < line)
    (rest : List (List Char)) :
    blockEndFrom deeper last line rest ≤ blockEndFrom base last line rest := by
  induction rest generalizing last line with
  | nil => exact Nat.le_refl last
  | cons raw rest ih =>
    by_cases hdeeper : endsBlock deeper raw = true
    · rw [blockEndFrom, if_pos hdeeper]
      exact le_blockEndFrom base h (raw :: rest)
    · have hbase : ¬ endsBlock base raw = true := fun hends => hdeeper (endsBlock_mono hbase hends)
      rw [blockEndFrom, if_neg hdeeper, blockEndFrom, if_neg hbase]
      exact ih (by split <;> omega)

/-- A block that reaches a line of code goes on from there, and the line is indented deeper. -/
theorem blockEndFrom_of_le {rest : List (List Char)} {n : Nat} {raw : List Char}
    (hraw : rest[n]? = some raw) (hcode : isSkippable (trim raw) = false)
    (hopen : closesBracket (trim raw) = false) (h : last < line)
    (hle : line + n ≤ blockEndFrom base last line rest) : base < indent raw ∧
      blockEndFrom base last line rest = blockEndFrom base (line + n) (line + n + 1)
        (rest.drop (n + 1)) := by
  induction rest generalizing last line n with
  | nil => simp at hraw
  | cons first rest ih =>
    rw [blockEndFrom] at hle ⊢
    split at hle
    · omega
    next hfirst =>
      rw [if_neg hfirst]
      cases n with
      | zero =>
        obtain rfl : first = raw := by simpa using hraw
        simp only [hcode, Bool.false_eq_true, if_false, Nat.add_zero,
          List.drop_succ_cons, List.drop_zero]
        refine ⟨?_, trivial⟩
        simpa [endsBlock, hcode, hopen] using hfirst
      | succ n =>
        have hnext : (if isSkippable (trim first) then last else line) < line + 1 := by
          split <;> omega
        rw [← Nat.add_assoc, Nat.add_right_comm] at hle ⊢
        exact ih hraw hnext hle

end BlockEnd

/-! ## Nested ranges -/

/-- Two ranges of which the second one starts later have no line in common, or the second lies in
the first. -/
def Apart (s t : Symbol) : Prop := s.endLine < t.line ∨ t.endLine ≤ s.endLine

section Ranges
variable {s t : Symbol} {raw : List Char} {line : Nat} {rest : List (List Char)} {st : State}

/-- A symbol and one that is declared further down. -/
theorem IsDeclaredBy.apart (hs : IsDeclaredBy s raw line rest)
    (ht : t ∈ symbolsFrom st (line + 1) rest) : s.line < t.line ∧ Apart s t := by
  obtain ⟨n, inner, hinner, ht⟩ := exists_isDeclaredBy ht
  have hsline := hs.line_eq
  have htline := ht.line_eq
  refine ⟨by omega, ?_⟩
  by_cases hreach : s.endLine < t.line
  · exact Or.inl hreach
  · have hle : line + 1 + n ≤ blockEndFrom (indent raw) line (line + 1) rest := by
      have := hs.endLine_eq
      omega
    obtain ⟨hdeeper, hsame⟩ := blockEndFrom_of_le hinner ht.isSkippable_eq ht.closesBracket_eq
      (Nat.lt_succ_self line) hle
    refine Or.inr ?_
    rw [ht.endLine_eq, hs.endLine_eq, hsame]
    exact Int.ofNat_le.mpr (blockEndFrom_mono (Nat.le_of_lt hdeeper) (Nat.lt_succ_self _) _)

theorem pairwise_symbolsFrom (st : State) (line : Nat) (rest : List (List Char)) :
    (symbolsFrom st line rest).Pairwise fun s t => s.line < t.line ∧ Apart s t := by
  induction rest generalizing st line with
  | nil => exact List.Pairwise.nil
  | cons raw rest ih =>
    obtain ⟨st', hnone | ⟨s, hs, hsome⟩⟩ := symbolsFrom_cons st line raw rest
    · exact hnone ▸ ih st' (line + 1)
    · rw [hsome]
      exact List.pairwise_cons.mpr ⟨fun t ht => hs.apart ht, ih st' (line + 1)⟩

theorem bounds_of_mem_symbolsOfLines {lines : List (List Char)} (h : s ∈ symbolsOfLines lines) :
    1 ≤ s.line ∧ s.line ≤ s.endLine ∧ s.endLine ≤ lines.length := by
  obtain ⟨n, raw, hraw, hs⟩ := exists_isDeclaredBy h
  have hn := (List.getElem?_eq_some_iff.mp hraw).1
  have hle := le_blockEndFrom (indent raw) (Nat.lt_add_one (1 + n)) (lines.drop (n + 1))
  have hlt := blockEndFrom_lt (indent raw) (Nat.lt_add_one (1 + n)) (lines.drop (n + 1))
  rw [List.length_drop] at hlt
  have hline := hs.line_eq
  have hend := hs.endLine_eq
  omega

/-- Symbols of a file are apart, in whichever order they are given. -/
theorem apart_of_mem_symbolsOfLines {lines : List (List Char)} (hs : s ∈ symbolsOfLines lines)
    (ht : t ∈ symbolsOfLines lines) (hlt : s.line < t.line) : Apart s t := by
  have hpairwise := List.pairwise_iff_getElem.mp (pairwise_symbolsFrom {} 1 lines)
  obtain ⟨i, hi, rfl⟩ := List.getElem_of_mem hs
  obtain ⟨j, hj, rfl⟩ := List.getElem_of_mem ht
  rcases Nat.lt_trichotomy i j with hij | hij | hij
  · exact (hpairwise i j hi hj hij).2
  · subst hij
    exact absurd hlt (Int.lt_irrefl _)
  · exact absurd hlt (Int.lt_asymm (hpairwise j i hj hi hij).1)

theorem lastLine_of_le (hpos : 1 ≤ s.line) (hle : s.line ≤ s.endLine) : s.lastLine = s.endLine :=
  if_neg (by omega)

end Ranges

/-- The ranges of the symbols of a file are nested or have no line in common. The innermost symbol
around a line is the one that starts last. -/
theorem symbols_laminar (content : List UInt8) :
    (symbols content).Pairwise (fun s t => s.line < t.line) ∧
    (∀ s ∈ symbols content, 1 ≤ s.line ∧ s.line ≤ s.endLine ∧
      s.endLine ≤ (lines (Utf8.decode content)).length) ∧
    (∀ s ∈ symbols content, ∀ t ∈ symbols content, s.line < t.line →
      s.endLine < t.line ∨ t.endLine ≤ s.endLine) ∧
    ∀ line : Int, (∃ s ∈ symbols content, s.contains line = true) →
      ∃ s, Impact.enclosing? (symbols content) line = some s ∧ s ∈ symbols content ∧
        s.contains line = true ∧ ∀ t ∈ symbols content, t.contains line = true →
        t.line ≤ s.line := by
  refine ⟨(pairwise_symbolsFrom _ _ _).imp And.left, fun s hs => bounds_of_mem_symbolsOfLines hs,
    fun s hs t ht => apart_of_mem_symbolsOfLines hs ht, fun line hline => ?_⟩
  obtain ⟨s, hs⟩ : ∃ s, Impact.enclosing? (symbols content) line = some s := by
    refine Option.ne_none_iff_exists'.mp fun hnone => ?_
    obtain ⟨t, ht, hcontains⟩ := hline
    rw [Impact.enclosing?_eq_none_iff.mp hnone t ht] at hcontains
    cases hcontains
  obtain ⟨hmem, hcontains⟩ := Impact.mem_of_enclosing? hs
  refine ⟨s, hs, hmem, hcontains, fun t ht htcontains => Int.not_lt.mp fun hlt => ?_⟩
  -- a symbol around the line that starts later lies in the range of `s`, so it is further inside
  obtain ⟨hspos, hsle, -⟩ := bounds_of_mem_symbolsOfLines hmem
  obtain ⟨htpos, htle, -⟩ := bounds_of_mem_symbolsOfLines ht
  have hinner := Impact.not_isInner_of_enclosing? hs ht htcontains
  simp only [Symbol.contains, Bool.and_eq_true, decide_eq_true_eq,
    lastLine_of_le hspos hsle] at hcontains
  simp only [Symbol.contains, Bool.and_eq_true, decide_eq_true_eq,
    lastLine_of_le htpos htle] at htcontains
  refine Bool.eq_false_iff.mp hinner (Impact.isInner_iff.mpr ?_)
  rw [Impact.extent, Impact.extent, lastLine_of_le hspos hsle, lastLine_of_le htpos htle]
  rcases apart_of_mem_symbolsOfLines hmem ht hlt with hapart | hnested
  · omega
  · omega

/-- A method in a class with a comment at the outermost level in between, and a constant behind
the class. -/
theorem symbols_laminar_nested :
    let content := Utf8.encode "class A:\n  def f(self):\n# note\n    pass\nB = 1\n".toList
    (symbols content).map (fun s => (s.name, s.line, s.endLine)) = [("A", 1, 4), ("f", 2, 4),
      ("B", 5, 5)] ∧ (∀ s ∈ symbols content, ∀ t ∈ symbols content, s.line < t.line →
        s.endLine < t.line ∨ t.endLine ≤ s.endLine) ∧
      ∃ s, Impact.enclosing? (symbols content) 3 = some s ∧ s.name = "f" ∧
        ∀ t ∈ symbols content, t.contains 3 = true → t.line ≤ s.line := by
  intro content
  obtain ⟨-, -, hapart, henclosing⟩ := symbols_laminar content
  have hsome : ((symbols content).any fun s => s.contains 3) = true := by decide +kernel
  have hname : (Impact.enclosing? (symbols content) 3).map (·.name) = some "f" := by decide +kernel
  obtain ⟨s, hs, -, -, hlast⟩ := henclosing 3 (List.any_eq_true.mp hsome)
  rw [hs, Option.map_some, Option.some.injEq] at hname
  exact ⟨by decide +kernel, hapart, s, hs, hname, hlast⟩

end CodeAtlas.Outline.Indented
