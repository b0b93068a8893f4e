import CodeAtlas.Proofs.Text.Stop
import CodeAtlas.Text.Lines

/-! # Lines under the Unicode rules

What is gathered line by line from a text, where an empty line contributes nothing, can be gathered
from two parts of the text if it is cut at a line boundary. Between a carriage return and a line
feed this only adds an empty line.
-/
namespace CodeAtlas.Text

/-! ## Gathering line by line -/

section Gather
variable {α : Type} {f : List Char → List α} (hf : f [] = [])
include hf

theorem flatMap_boundedLinesFrom_nil (line : List Char) :
    (boundedLinesFrom line []).flatMap f = f line.reverse := by
  cases line with
  | nil => simp [boundedLinesFrom, hf]
  | cons c line => simp [boundedLinesFrom]

theorem flatMap_boundedLinesFrom_cons (line : List Char) (c : Char) (rest : List Char) :
    (boundedLinesFrom line (c :: rest)).flatMap f = if isLineBoundary c then f line.reverse ++
      (boundedLines rest).flatMap f
      else (boundedLinesFrom (c :: line) rest).flatMap f := by
  conv_lhs => unfold boundedLinesFrom
  split
  next heq => cases heq
  next rest' heq =>
    -- the line feed behind a carriage return would end an empty line
    obtain ⟨rfl, rfl⟩ := List.cons.inj heq
    have hfeed : isLineBoundary '\n' = true := rfl
    have hreturn : isLineBoundary '\r' = true := rfl
    simp [boundedLines, boundedLinesFrom, hfeed, hreturn, hf]
  next heq =>
    obtain ⟨rfl, rfl⟩ := List.cons.inj heq
    split
    · rfl
    · rfl

theorem flatMap_boundedLinesFrom_append (line front : List Char) {c : Char}
    (hc : isLineBoundary c = true) (rest : List Char) :
    (boundedLinesFrom line (front ++ c :: rest)).flatMap f =
      (boundedLinesFrom line front).flatMap f ++ (boundedLines rest).flatMap f := by
  induction front generalizing line with
  | nil =>
    rw [List.nil_append, flatMap_boundedLinesFrom_cons hf, if_pos hc,
      flatMap_boundedLinesFrom_nil hf]
  | cons d front ih =>
    rw [List.cons_append, flatMap_boundedLinesFrom_cons hf, flatMap_boundedLinesFrom_cons hf]
    split
    · rw [List.append_assoc]
      exact congrArg _ (ih [])
    · exact ih _

/-- The text may be cut at a line boundary. -/
theorem flatMap_boundedLines_append (front : List Char) {c : Char} (hc : isLineBoundary c = true)
    (rest : List Char) :
    (boundedLines (front ++ c :: rest)).flatMap f = (boundedLines front).flatMap f ++
    (boundedLines rest).flatMap f :=
  flatMap_boundedLinesFrom_append hf [] front hc rest

theorem flatMap_boundedLinesFrom_of_none (line : List Char) {text : List Char}
    (h : ∀ c ∈ text, isLineBoundary c = false) :
    (boundedLinesFrom line text).flatMap f = f (line.reverse ++ text) := by
  induction text generalizing line with
  | nil => rw [flatMap_boundedLinesFrom_nil hf, List.append_nil]
  | cons c text ih =>
    obtain ⟨hc, htext⟩ := List.forall_mem_cons.mp h
    rw [flatMap_boundedLinesFrom_cons hf, hc, if_neg (by decide), ih _ htext, List.reverse_cons,
      List.append_assoc, List.singleton_append]

theorem flatMap_boundedLines_of_none {text : List Char} (h : ∀ c ∈ text, isLineBoundary c = false) :
    (boundedLines text).flatMap f = f text :=
  flatMap_boundedLinesFrom_of_none hf [] h

/-- Nothing is gathered from a text if nothing is gathered from lines of its characters. -/
theorem flatMap_boundedLinesFrom_eq_nil {p : Char → Bool}
    (h : ∀ line : List Char, line.all p = true → f line = []) {line text : List Char}
    (hline : line.all p = true) (htext : text.all p = true) :
    (boundedLinesFrom line text).flatMap f = [] := by
  induction text generalizing line with
  | nil => rw [flatMap_boundedLinesFrom_nil hf, h _ (by rwa [List.all_reverse])]
  | cons c text ih =>
    rw [List.all_cons, Bool.and_eq_true] at htext
    rw [flatMap_boundedLinesFrom_cons hf]
    split
    · rw [h _ (by rwa [List.all_reverse]), boundedLines, ih rfl htext.2, List.append_nil]
    · exact ih (by rw [List.all_cons, htext.1, hline, Bool.and_self]) htext.2

end Gather

/-! ## The first and the last line -/

/-- Whether there is a line boundary in the text. -/
def isBroken (text : List Char) : Bool := text.any isLineBoundary

/-- The text in front of its first line boundary. -/
def firstLine (text : List Char) : List Char := text.takeWhile (!isLineBoundary ·)

/-- The text behind its last line boundary. -/
def lastLine (text : List Char) : List Char := (text.reverse.takeWhile (!isLineBoundary ·)).reverse

section Cuts
variable {text : List Char}

theorem isBroken_eq_false_iff : isBroken text = false ↔ ∀ c ∈ text, isLineBoundary c = false := by
  simp [isBroken]

@[simp] theorem isBroken_append (text text' : List Char) :
    isBroken (text ++ text') = (isBroken text || isBroken text') :=
  List.any_append

theorem firstLine_of_not_isBroken (h : isBroken text = false) : firstLine text = text := by
  rw [firstLine, List.takeWhile_eq_self_iff]
  simpa [isBroken] using h

theorem lastLine_of_not_isBroken (h : isBroken text = false) : lastLine text = text := by
  have hself : text.reverse.takeWhile (!isLineBoundary ·) = text.reverse := by
    rw [List.takeWhile_eq_self_iff]
    simpa [isBroken] using h
  rw [lastLine, hself, List.reverse_reverse]

theorem isBroken_firstLine (text : List Char) : isBroken (firstLine text) = false := by
  rw [isBroken_eq_false_iff]
  intro c hc
  simpa using List.mem_takeWhile_imp hc

theorem isBroken_lastLine (text : List Char) : isBroken (lastLine text) = false := by
  rw [isBroken_eq_false_iff]
  intro c hc
  simpa using List.mem_takeWhile_imp (List.mem_reverse.mp hc)

theorem exists_cut_firstLine (h : isBroken text = true) :
    ∃ c rest, isLineBoundary c = true ∧ text = firstLine text ++ c :: rest := by
  have hsplit := List.takeWhile_append_dropWhile (p := (!isLineBoundary ·)) (l := text)
  cases hrest : text.dropWhile (!isLineBoundary ·) with
  | nil =>
    rw [hrest, List.append_nil] at hsplit
    have hnone := isBroken_firstLine text
    rw [firstLine, hsplit, h] at hnone
    cases hnone
  | cons c rest =>
    have hc := List.head?_dropWhile_not (!isLineBoundary ·) text
    rw [hrest] at hc hsplit
    exact ⟨c, rest, by simpa using hc, hsplit.symm⟩

theorem exists_cut_lastLine (h : isBroken text = true) :
    ∃ front c, isLineBoundary c = true ∧ text = front ++ c :: lastLine text := by
  have hreverse : isBroken text.reverse = true := by rwa [isBroken, List.any_reverse]
  obtain ⟨c, rest, hc, hcut⟩ := exists_cut_firstLine hreverse
  have htext := congrArg List.reverse hcut
  rw [List.reverse_reverse, List.reverse_append, List.reverse_cons, List.append_assoc,
    List.singleton_append] at htext
  exact ⟨rest.reverse, c, hc, htext⟩

theorem lastLine_append_cons (front : List Char) {c : Char} (hc : isLineBoundary c = true)
    (rest : List Char) : lastLine (front ++ c :: rest) = lastLine rest := by
  rw [lastLine, List.reverse_append, List.reverse_cons, List.append_assoc, List.singleton_append,
    takeWhile_append_stop (by simp [hc])]
  rfl

theorem lastLine_append_of_isBroken (front : List Char) (h : isBroken text = true) :
    lastLine (front ++ text) = lastLine text := by
  obtain ⟨c, rest, hc, hcut⟩ := exists_cut_firstLine h
  rw [hcut, ← List.append_assoc, lastLine_append_cons _ hc, lastLine_append_cons _ hc]

theorem lastLine_append (front : List Char) (h : isBroken text = false) :
    lastLine (front ++ text) = lastLine front ++ text := by
  have hall : ∀ c ∈ text.reverse, (!isLineBoundary c) = true := by
    simpa using isBroken_eq_false_iff.mp h
  rw [lastLine, List.reverse_append, List.takeWhile_append_of_pos hall, List.reverse_append,
    List.reverse_reverse, lastLine]

theorem firstLine_append (h : isBroken text = false) (rest : List Char) :
    firstLine (text ++ rest) = text ++ firstLine rest := by
  apply List.takeWhile_append_of_pos
  simpa using isBroken_eq_false_iff.mp h

theorem firstLine_append_cons (front : List Char) {c : Char} (hc : isLineBoundary c = true)
    (rest : List Char) : firstLine (front ++ c :: rest) = firstLine front :=
  takeWhile_append_stop (by simp [hc]) front rest

theorem firstLine_append_of_isBroken (h : isBroken text = true) (rest : List Char) :
    firstLine (text ++ rest) = firstLine text := by
  obtain ⟨c, behind, hc, hcut⟩ := exists_cut_firstLine h
  rw [hcut, List.append_assoc, List.cons_append, firstLine_append_cons _ hc,
    firstLine_append_cons _ hc]

theorem exists_append_lastLine (text : List Char) : ∃ front, text = front ++ lastLine text := by
  refine ⟨(text.reverse.dropWhile (!isLineBoundary ·)).reverse, ?_⟩
  rw [lastLine, ← List.reverse_append, List.takeWhile_append_dropWhile, List.reverse_reverse]

theorem mem_of_mem_lastLine {c : Char} (h : c ∈ lastLine text) : c ∈ text := by
  obtain ⟨front, hfront⟩ := exists_append_lastLine text
  rw [hfront]
  exact List.mem_append_right front h

theorem mem_of_mem_firstLine {c : Char} (h : c ∈ firstLine text) : c ∈ text :=
  (List.takeWhile_subset _) h

end Cuts

end CodeAtlas.Text
