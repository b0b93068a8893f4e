import CodeAtlas.Proofs.Text.Word
import CodeAtlas.Text.Lines

/-! # Lines of a text

The line on which something stands has the number of line feeds in front of it. A name that
stands in a text as a whole word, and holds no line feed, stands in the line with that number as
a whole word.
-/
namespace CodeAtlas.Text

theorem splitOn_ne_nil (sep : Char) (text : List Char) : splitOn sep text ≠ [] := by
  cases text with
  | nil => exact List.cons_ne_nil _ _
  | cons c text =>
    rw [splitOn]
    split
    · exact List.cons_ne_nil _ _
    · split <;> exact List.cons_ne_nil _ _

theorem splitOn_append_sep (sep : Char) (before after : List Char) :
    splitOn sep (before ++ sep :: after) = splitOn sep before ++ splitOn sep after := by
  induction before with
  | nil => simp [splitOn]
  | cons c before ih =>
    rw [List.cons_append, splitOn, splitOn, ih]
    split
    · rfl
    · cases hpieces : splitOn sep before with
      | nil => exact absurd hpieces (splitOn_ne_nil sep before)
      | cons piece pieces => rfl

theorem splitOn_of_not_mem {sep : Char} {text : List Char} (h : sep ∉ text) :
    splitOn sep text = [text] := by
  induction text with
  | nil => rfl
  | cons c text ih =>
    simp only [List.mem_cons, not_or] at h
    rw [splitOn, if_neg (Ne.symm h.1), ih h.2]

theorem length_splitOn (sep : Char) (text : List Char) :
    (splitOn sep text).length = text.count sep + 1 := by
  induction text with
  | nil => rfl
  | cons c text ih =>
    rw [splitOn]
    split
    next hc => simp [hc, ih]
    next hc =>
      rw [List.count_cons_of_ne hc, ← ih]
      cases hpieces : splitOn sep text with
      | nil => exact absurd hpieces (splitOn_ne_nil sep text)
      | cons piece pieces => rfl

theorem length_lines (text : List Char) : (lines text).length = text.count '\n' + 1 :=
  length_splitOn '\n' text

theorem not_mem_of_mem_splitOn {sep : Char} {text piece : List Char}
    (h : piece ∈ splitOn sep text) : sep ∉ piece := by
  induction text generalizing piece with
  | nil => simp_all [splitOn]
  | cons c text ih =>
    rw [splitOn] at h
    split at h
    · rcases List.mem_cons.mp h with rfl | h
      · simp
      · exact ih h
    next hc =>
      cases hpieces : splitOn sep text with
      | nil => exact absurd hpieces (splitOn_ne_nil sep text)
      | cons first pieces =>
        rw [hpieces] at h ih
        rcases List.mem_cons.mp h with rfl | h
        · simp [Ne.symm hc, ih List.mem_cons_self]
        · exact ih (List.mem_cons_of_mem first h)

theorem intercalate_splitOn (sep : Char) (text : List Char) :
    [sep].intercalate (splitOn sep text) = text := by
  induction text with
  | nil => rfl
  | cons c text ih =>
    rw [splitOn]
    split
    next hc =>
      rw [List.intercalate_cons_of_ne_nil (splitOn_ne_nil sep text), ih, hc]
      rfl
    next =>
      cases hpieces : splitOn sep text with
      | nil => exact absurd hpieces (splitOn_ne_nil sep text)
      | cons piece pieces =>
        rw [hpieces] at ih
        cases pieces with
        | nil => simpa using ih
        | cons next pieces => simpa using ih

theorem splitOn_intercalate {sep : Char} {pieces : List (List Char)} (hne : pieces ≠ [])
    (h : ∀ piece ∈ pieces, sep ∉ piece) : splitOn sep ([sep].intercalate pieces) = pieces := by
  induction pieces with
  | nil => exact absurd rfl hne
  | cons piece pieces ih =>
    have hpiece := splitOn_of_not_mem (h piece List.mem_cons_self)
    cases pieces with
    | nil => simpa using hpiece
    | cons next pieces =>
      rw [List.intercalate_cons_of_ne_nil (List.cons_ne_nil next pieces), List.append_assoc,
        List.singleton_append, splitOn_append_sep, hpiece, ih (List.cons_ne_nil next pieces)
        fun q hq => h q (List.mem_cons_of_mem piece hq)]
      rfl

theorem splitOn_toList_intercalate {sep : Char} {text : String} (htext : text.toList = [sep])
    {parts : List String} (hne : parts ≠ []) (h : ∀ part ∈ parts, sep ∉ part.toList) :
    splitOn sep (text.intercalate parts).toList = parts.map String.toList := by
  have hparts : ∀ piece ∈ parts.map String.toList, sep ∉ piece := by simpa using h
  rw [String.toList_intercalate, htext, splitOn_intercalate (by simpa using hne) hparts]

theorem mem_or_of_mem_intercalate {sep : List Char} {pieces : List (List Char)} {c : Char}
    (h : c ∈ sep.intercalate pieces) : c ∈ sep ∨ ∃ piece ∈ pieces, c ∈ piece := by
  induction pieces with
  | nil => simp at h
  | cons piece pieces ih =>
    by_cases hpieces : pieces = []
    · exact Or.inr ⟨piece, List.mem_cons_self, by simpa [hpieces] using h⟩
    · rw [List.intercalate_cons_of_ne_nil hpieces, List.append_assoc, List.mem_append,
        List.mem_append] at h
      rcases h with h | h | h
      · exact Or.inr ⟨piece, List.mem_cons_self, h⟩
      · exact Or.inl h
      · exact (ih h).imp_right fun ⟨q, hq, hc⟩ => ⟨q, List.mem_cons_of_mem piece hq, hc⟩

theorem intercalate_take (sep : List Char) (pieces : List (List Char)) (n : Nat) :
    sep.intercalate (pieces.take n) <+: sep.intercalate pieces := by
  induction pieces generalizing n with
  | nil => simp
  | cons piece pieces ih =>
    cases n with
    | zero => simp
    | succ n =>
      cases pieces with
      | nil => simp
      | cons next pieces =>
        have hrest := ih n
        cases n with
        | zero => simp
        | succ n => simpa using hrest

/-- Whole lines in front of a line, and the end of the text or a line feed behind it. -/
theorem getElem?_lines {head line tail : List Char}
    (hhead : head = [] ∨ ∃ before, head = before ++ ['\n']) (hline : '\n' ∉ line)
    (htail : tail = [] ∨ ∃ after, tail = '\n' :: after) :
    (lines (head ++ line ++ tail))[head.count '\n']? = some line := by
  have hfirst : (lines (line ++ tail))[0]? = some line := by
    rcases htail with rfl | ⟨after, rfl⟩
    · rw [List.append_nil, lines, splitOn_of_not_mem hline]
      rfl
    · rw [lines, splitOn_append_sep, splitOn_of_not_mem hline]
      rfl
  rcases hhead with rfl | ⟨before, rfl⟩
  · exact hfirst
  · have hsplit :
        lines (before ++ ['\n'] ++ line ++ tail) = lines before ++ lines (line ++ tail) := by
      rw [List.append_assoc, List.append_assoc, List.singleton_append, lines, splitOn_append_sep]
      rfl
    have hcount : (before ++ ['\n']).count '\n' = (lines before).length := by
      rw [List.count_append, length_lines]
      rfl
    rw [hsplit, hcount, List.getElem?_append_right (Nat.le_refl _), Nat.sub_self]
    exact hfirst

/-- What is behind a place on its own line, and the lines behind it. -/
theorem exists_cut_after (after : List Char) :
    ∃ back tail, after = back ++ tail ∧ '\n' ∉ back ∧
      (tail = [] ∨ ∃ lines, tail = '\n' :: lines) := by
  by_cases h : '\n' ∈ after
  · obtain ⟨back, lines, rfl, hback⟩ := List.eq_append_cons_of_mem h
    exact ⟨back, '\n' :: lines, rfl, hback, Or.inr ⟨lines, rfl⟩⟩
  · exact ⟨after, [], (List.append_nil after).symm, h, Or.inl rfl⟩

/-- The lines in front of a place, and what is in front of it on its own line. -/
theorem exists_cut_before (before : List Char) :
    ∃ head front, before = head ++ front ∧ (head = [] ∨ ∃ lines, head = lines ++ ['\n']) ∧
      '\n' ∉ front := by
  obtain ⟨back, tail, hcut, hback, htail⟩ := exists_cut_after before.reverse
  refine ⟨tail.reverse, back.reverse, ?_, ?_, by simpa using hback⟩
  · rw [← List.reverse_append, ← hcut, List.reverse_reverse]
  · refine htail.imp (fun h => by rw [h, List.reverse_nil]) ?_
    rintro ⟨lines, rfl⟩
    exact ⟨lines.reverse, List.reverse_cons⟩

/-- What is in front of an entry with a given index, and what is behind it. -/
theorem exists_cut_at {α : Type} {xs : List α} {n : Nat} {x : α} (h : xs[n]? = some x) :
    ∃ before after, xs = before ++ x :: after ∧ before.length = n := by
  obtain ⟨hn, rfl⟩ := List.getElem?_eq_some_iff.mp h
  refine ⟨xs.take n, xs.drop (n + 1), ?_, by simp; omega⟩
  rw [List.getElem_cons_drop, List.take_append_drop]

/-- The name stands on the given line of the text, with no other word character next to it. -/
def StandsOn (text name : List Char) (line : Nat) : Prop :=
  '\n' ∉ name ∧ ∃ before after, text = before ++ name ++ after ∧ line = before.count '\n' + 1 ∧
    before.getLast?.any isWordChar = false ∧ after.head?.any isWordChar = false

theorem StandsOn.exists_line {text name : List Char} {line : Nat} (h : StandsOn text name line)
    (hname : HasWordEnds name) : ∃ raw, (lines text)[line - 1]? = some raw ∧ Occurs name raw := by
  obtain ⟨hfeed, before, after, rfl, rfl, hbefore, hafter⟩ := h
  obtain ⟨head, front, rfl, hhead, hfront⟩ := exists_cut_before before
  obtain ⟨back, tail, rfl, hback, htail⟩ := exists_cut_after after
  refine ⟨front ++ name ++ back, ?_, occurs_of_edges hname ?_ ?_⟩
  · have hline : '\n' ∉ front ++ name ++ back := by simp [hfront, hfeed, hback]
    have hget := getElem?_lines hhead hline htail
    rw [List.count_append, List.count_eq_zero_of_not_mem hfront]
    simpa using hget
  · cases front with
    | nil => rfl
    | cons c front =>
      rwa [List.getLast?_append, List.getLast?_cons,
        Option.some_or, ← List.getLast?_cons] at hbefore
  · cases back with
    | nil => rfl
    | cons c back => exact hafter

end CodeAtlas.Text
