import CodeAtlas.Proofs.Outline.Braced.Run

/-! # Where declarations end

The last line of a declaration is found by a scan of its own, which begins with the line of the
declaration and outside of any comment. What it sees is told by the depth behind each line and the
code of each line.
-/
namespace CodeAtlas.Outline.Braced
open Text

/-! ## Depth and code -/

/-- The depth and whether a comment is open, behind one more line. -/
def pass (p : Int × Bool) (raw : List Char) : Int × Bool :=
  (p.1 + braceBalance (codeOf p.2 raw).1, (codeOf p.2 raw).2)

theorem stateFrom_pass (st : State) (line : Nat) (front : List (List Char)) :
    ((stateFrom st line front).depth, (stateFrom st line front).inComment) =
      front.foldl pass (st.depth, st.inComment) := by
  induction front generalizing st line with
  | nil => rfl
  | cons raw front ih => simp [ih, read_depth, read_inComment, pass]

/-- The depth behind the first lines. -/
def depthAt (p : Int × Bool) (rest : List (List Char)) (n : Nat) : Int :=
  ((rest.take n).foldl pass p).1

/-- The code of the line with the given index. -/
def codeAt (p : Int × Bool) (rest : List (List Char)) (n : Nat) : List Char :=
  (codeOf ((rest.take n).foldl pass p).2 (rest.getD n [])).1

section Scan
variable (p : Int × Bool) (base : Int) (opened atStart : Bool) (raw : List Char)
  (rest : List (List Char)) (n : Nat)

@[simp] theorem depthAt_zero : depthAt p rest 0 = p.1 := rfl

@[simp] theorem depthAt_cons : depthAt p (raw :: rest) (n + 1) = depthAt (pass p raw) rest n := rfl

@[simp] theorem codeAt_zero : codeAt p (raw :: rest) 0 = (codeOf p.2 raw).1 := rfl

@[simp] theorem codeAt_cons : codeAt p (raw :: rest) (n + 1) = codeAt (pass p raw) rest n := rfl

/-- The line with the given index brings the depth back to `base`, and it is behind one that went
deeper, or ends in a semicolon, or is the first and not visibly continued. -/
def Ends : Prop :=
  codeAt p rest n ≠ [] ∧ depthAt p rest (n + 1) ≤ base ∧
    (opened = true ∨ (∃ m < n, base < depthAt p rest (m + 1)) ∨
      endsWith ";" (codeAt p rest n) = true ∨ atStart = true ∧ n = 0 ∧
      isContinued (codeAt p rest n) = false)

theorem ends_zero : Ends p base opened atStart (raw :: rest) 0 ↔
    (codeOf p.2 raw).1 ≠ [] ∧ (pass p raw).1 ≤ base ∧
      (opened = true ∨ endsWith ";" (codeOf p.2 raw).1 = true ∨ atStart = true ∧
      isContinued (codeOf p.2 raw).1 = false) := by
  simp [Ends]

theorem ends_succ : Ends p base opened atStart (raw :: rest) (n + 1) ↔
    Ends (pass p raw) base (opened || decide (base < (pass p raw).1)) false rest n := by
  have hopened : (∃ m < n + 1, base < depthAt (pass p raw) rest m) ↔
      base < (pass p raw).1 ∨ ∃ m < n, base < depthAt (pass p raw) rest (m + 1) := by
    constructor
    · rintro ⟨m, hm, hdeep⟩
      cases m with
      | zero => exact Or.inl hdeep
      | succ m => exact Or.inr ⟨m, by omega, hdeep⟩
    · rintro (hdeep | ⟨m, hm, hdeep⟩)
      · exact ⟨0, by omega, hdeep⟩
      · exact ⟨m + 1, by omega, hdeep⟩
  simp only [Ends, codeAt_cons, depthAt_cons, hopened, or_assoc, Bool.or_eq_true, decide_eq_true_eq,
    Nat.add_one_ne_zero, Bool.false_eq_true, false_and, and_false]

/-- One step of the scan: it stops at the first line, or goes on from behind it. -/
theorem blockEndFrom_cons (line : Nat) (hshallow : opened = false → p.1 ≤ base) :
    (Ends p base opened atStart (raw :: rest) 0 ∧
      blockEndFrom base ⟨p.1, p.2, opened, atStart⟩ line (raw :: rest) = some line) ∨
    (¬ Ends p base opened atStart (raw :: rest) 0 ∧
      blockEndFrom base ⟨p.1, p.2, opened, atStart⟩ line (raw :: rest) =
        blockEndFrom base ⟨(pass p raw).1, (pass p raw).2, opened || decide (base < (pass p raw).1),
          false⟩ (line + 1) rest) := by
  rw [ends_zero, blockEndFrom]
  by_cases hempty : (codeOf p.2 raw).1 = []
  · -- nothing changes on a line without code
    have hopened : (opened || decide (base < p.1)) = opened := by
      cases opened with
      | true => rfl
      | false => simpa using hshallow rfl
    exact Or.inr ⟨by simp [hempty], by simp [hempty, hopened, pass]⟩
  · by_cases hdeep : base < p.1 + braceBalance (codeOf p.2 raw).1
    · exact Or.inr ⟨by simp [pass, Int.not_le.mpr hdeep], by simp [hempty, hdeep, pass]⟩
    · by_cases hstop : (opened || endsWith ";" (codeOf p.2 raw).1 ||
          (atStart && !isContinued (codeOf p.2 raw).1)) = true
      · refine Or.inl ⟨⟨hempty, Int.not_lt.mp hdeep, ?_⟩, by simp [hempty, hdeep, hstop]⟩
        simpa [or_assoc] using hstop
      · refine Or.inr ⟨fun h => hstop ?_, by simp [hempty, hdeep, hstop, pass]⟩
        simpa [or_assoc] using h.2.2

end Scan

/-- The scan stops at the first line that ends the declaration. -/
theorem blockEndFrom_cases (p : Int × Bool) (base : Int) (opened atStart : Bool) (line : Nat)
    (rest : List (List Char)) (hshallow : opened = false → p.1 ≤ base) :
    (∃ n < rest.length, blockEndFrom base ⟨p.1, p.2, opened, atStart⟩ line rest = some (line + n) ∧
      Ends p base opened atStart rest n ∧ ∀ m < n, ¬ Ends p base opened atStart rest m) ∨
    blockEndFrom base ⟨p.1, p.2, opened, atStart⟩ line rest = none ∧
      ∀ n < rest.length, ¬ Ends p base opened atStart rest n := by
  induction rest generalizing p opened atStart line with
  | nil => exact Or.inr ⟨rfl, nofun⟩
  | cons raw rest ih =>
    obtain ⟨hends, hstop⟩ | ⟨hends, hnext⟩ :=
      blockEndFrom_cons p base opened atStart raw rest line hshallow
    · exact Or.inl ⟨0, Nat.succ_pos _, hstop, hends, nofun⟩
    · have hbehind : (opened || decide (base < (pass p raw).1)) = false →
          (pass p raw).1 ≤ base := by
        intro h
        simpa using (Bool.or_eq_false_iff.mp h).2
      rw [hnext]
      obtain ⟨n, hn, hstop, hfirst, hleast⟩ | ⟨hnone, hall⟩ :=
        ih (pass p raw) _ false (line + 1) hbehind
      · refine Or.inl ⟨n + 1, Nat.succ_lt_succ hn, ?_, (ends_succ ..).mpr hfirst, fun m hm => ?_⟩
        · rw [hstop, Nat.add_assoc, Nat.add_comm 1]
        · cases m with
          | zero => exact hends
          | succ m => exact fun h => hleast m (Nat.lt_of_succ_lt_succ hm) ((ends_succ ..).mp h)
      · refine Or.inr ⟨hnone, fun n hn => ?_⟩
        cases n with
        | zero => exact hends
        | succ n => exact fun h => hall n (Nat.lt_of_succ_lt_succ hn) ((ends_succ ..).mp h)

/-! ## Files -/

/-- The depth behind the first `n` lines of a file. -/
def depthBehind (file : List (List Char)) (n : Nat) : Int := (stateBehind (file.take n)).depth

/-- The code of the line with index `n`, and whether it leaves a comment open. -/
def lineCode (file : List (List Char)) (n : Nat) : List Char × Bool :=
  codeOf (stateBehind (file.take n)).inComment (file.getD n [])

/-- All that the scan takes from the code of a line. -/
structure Glance where
  isEmpty : Bool
  balance : Int
  terminated : Bool
  continued : Bool
  leavesComment : Bool
deriving DecidableEq

def glance (code : List Char × Bool) : Glance :=
  ⟨code.1.isEmpty, braceBalance code.1, endsWith ";" code.1, isContinued code.1, code.2⟩

/-- The scan takes the same from the line if it knows nothing of the lines in front of it. -/
def ReadsAlone (file : List (List Char)) (n : Nat) : Prop :=
  glance (codeOf false (file.getD n [])) = glance (lineCode file n)

instance (file : List (List Char)) (n : Nat) : Decidable (ReadsAlone file n) :=
  inferInstanceAs (Decidable (_ = _))

theorem readsAlone_of_not_inComment {file : List (List Char)} {n : Nat}
    (h : (stateBehind (file.take n)).inComment = false) : ReadsAlone file n := by
  rw [ReadsAlone, lineCode, h]

/-- The line with index `j` brings the depth back to what it was in front of the one with index `i`,
and it is behind one that went deeper, or ends in a semicolon, or is the first itself and not
visibly continued. -/
def EndsAt (file : List (List Char)) (i j : Nat) : Prop :=
  (lineCode file j).1 ≠ [] ∧ depthBehind file (j + 1) ≤ depthBehind file i ∧
    ((∃ m, i ≤ m ∧ m < j ∧ depthBehind file i < depthBehind file (m + 1)) ∨
      endsWith ";" (lineCode file j).1 = true ∨ j = i ∧ isContinued (lineCode file j).1 = false)

section File
variable {file front behind : List (List Char)} {raw : List Char}

theorem depth_stateBehind (front : List (List Char)) :
    (stateBehind front).depth = (front.foldl pass (0, false)).1 :=
  congrArg Prod.fst (stateFrom_pass {} 1 front)

theorem inComment_stateBehind (front : List (List Char)) :
    (stateBehind front).inComment = (front.foldl pass (0, false)).2 :=
  congrArg Prod.snd (stateFrom_pass {} 1 front)

theorem depthBehind_append (front rest : List (List Char)) (n : Nat) :
    depthBehind (front ++ rest) (front.length + n) =
      depthAt (front.foldl pass (0, false)) rest n := by
  rw [depthBehind, List.take_length_add_append, depth_stateBehind, List.foldl_append, depthAt]

theorem lineCode_append (front rest : List (List Char)) (n : Nat) :
    (lineCode (front ++ rest) (front.length + n)).1 =
      codeAt (front.foldl pass (0, false)) rest n := by
  rw [lineCode, List.take_length_add_append, inComment_stateBehind, List.foldl_append, codeAt]
  rw [List.getD_eq_getElem?_getD, List.getD_eq_getElem?_getD,
    List.getElem?_append_right (Nat.le_add_right _ _), Nat.add_sub_cancel_left]

theorem lineCode_length (front : List (List Char)) (raw : List Char) (behind : List (List Char)) :
    lineCode (front ++ raw :: behind) front.length = codeOf (stateBehind front).inComment raw := by
  simp [lineCode, List.getD_eq_getElem?_getD]

theorem endsAt_append (front rest : List (List Char)) (n : Nat) :
    EndsAt (front ++ rest) front.length (front.length + n) ↔
      Ends (front.foldl pass (0, false)) (front.foldl pass (0, false)).1 false true rest n := by
  have hbase := depthBehind_append front rest 0
  rw [Nat.add_zero, depthAt_zero] at hbase
  have hopened : (∃ m, front.length ≤ m ∧ m < front.length + n ∧
      depthBehind (front ++ rest) front.length < depthBehind (front ++ rest) (m + 1)) ↔
      ∃ m < n, (front.foldl pass (0, false)).1 < depthAt (front.foldl pass (0, false))
        rest (m + 1) := by
    constructor
    · rintro ⟨m, hle, hlt, hdeep⟩
      obtain ⟨k, rfl⟩ := Nat.exists_eq_add_of_le hle
      refine ⟨k, by omega, ?_⟩
      rwa [hbase, Nat.add_assoc, depthBehind_append] at hdeep
    · rintro ⟨k, hlt, hdeep⟩
      refine ⟨front.length + k, by omega, by omega, ?_⟩
      rwa [hbase, Nat.add_assoc, depthBehind_append]
  rw [EndsAt, Ends, hopened, hbase, lineCode_append, Nat.add_assoc, depthBehind_append]
  simp

/-- The scan knows nothing of the lines in front of it. This makes no difference if its first line
reads alone. -/
theorem ends_alone (p : Int × Bool) (base : Int) (opened atStart : Bool) (rest : List (List Char))
    (n : Nat) (h : glance (codeOf false raw) = glance (codeOf p.2 raw)) :
    Ends (p.1, false) base opened atStart (raw :: rest) n ↔
      Ends p base opened atStart (raw :: rest) n := by
  obtain ⟨hempty, hbalance, hterminated, hcontinued, hcomment⟩ := Glance.mk.inj h
  have hpass : pass (p.1, false) raw = pass p raw := by simp only [pass, hbalance, hcomment]
  cases n with
  | zero =>
    have hcode : (codeOf false raw).1 ≠ [] ↔ (codeOf p.2 raw).1 ≠ [] := by
      rw [ne_eq, ne_eq, ← List.isEmpty_iff, ← List.isEmpty_iff, hempty]
    simp only [ends_zero, hpass, hcode, hterminated, hcontinued]
  | succ n => simp only [ends_succ, hpass]

/-- The last line of a symbol is the first one that ends it, if any does. -/
theorem endLine_cases {s : Symbol} {i : Nat} (hs : s ∈ symbolsOfLines file) (hline : s.line = i + 1)
    (halone : ReadsAlone file i) :
    (∃ j, i ≤ j ∧ j < file.length ∧ EndsAt file i j ∧ (∀ m, i ≤ m → m < j → ¬ EndsAt file i m) ∧
      s.endLine = j + 1) ∨
    (∀ j, i ≤ j → j < file.length → ¬ EndsAt file i j) ∧ s.endLine = file.length := by
  obtain ⟨front, raw, behind, t, rfl, ht, rfl⟩ := mem_symbolsOfLines_iff.mp hs
  obtain rfl : i = front.length := by
    rw [withEnd_line, line_of_read ht] at hline
    omega
  have hraw : glance (codeOf false raw) = glance (codeOf (front.foldl pass (0, false)).2 raw) := by
    simpa [ReadsAlone, lineCode_length, inComment_stateBehind,
      List.getD_eq_getElem?_getD] using halone
  have hiff (n : Nat) :
      Ends ((front.foldl pass (0, false)).1, false) (front.foldl pass (0, false)).1 false true
      (raw :: behind) n ↔ EndsAt (front ++ raw :: behind) front.length (front.length + n) :=
    (ends_alone _ _ _ _ _ _ hraw).trans (endsAt_append ..).symm
  have hend : (withEnd (front ++ raw :: behind).length (stateBehind front) (1 + front.length)
        (raw :: behind) t).endLine =
      ((blockEndFrom (front.foldl pass (0, false)).1
        ⟨(front.foldl pass (0, false)).1, false, false, true⟩
        (1 + front.length) (raw :: behind)).getD (front ++ raw :: behind).length : Nat) := by
    rw [← depth_stateBehind]
    rfl
  have hlength : (front ++ raw :: behind).length = front.length + (raw :: behind).length :=
    List.length_append
  rcases blockEndFrom_cases ((front.foldl pass (0, false)).1, false) (front.foldl pass (0, false)).1
    false true (1 + front.length) (raw :: behind) (fun _ => Int.le_refl _) with
    ⟨n, hn, hstop, hfirst, hleast⟩ | ⟨hnone, hall⟩
  · refine Or.inl ⟨front.length + n, by omega, by omega, (hiff n).mp hfirst,
      fun m hle hlt => ?_, ?_⟩
    · obtain ⟨k, rfl⟩ := Nat.exists_eq_add_of_le hle
      exact fun h => hleast k (by omega) ((hiff k).mpr h)
    · refine hend.trans ?_
      rw [hstop, Option.getD_some]
      omega
  · refine Or.inr ⟨fun j hle hlt => ?_, ?_⟩
    · obtain ⟨k, rfl⟩ := Nat.exists_eq_add_of_le hle
      exact fun h => hall k (by omega) ((hiff k).mpr h)
    · refine hend.trans ?_
      rw [hnone, Option.getD_none]

/-- A declaration whose own line goes deeper ends where the depth comes back. -/
theorem endsAt_of_opened {i j : Nat} (hopened : depthBehind file i < depthBehind file (i + 1)) :
    i ≤ j ∧ EndsAt file i j ↔
      i < j ∧ (lineCode file j).1 ≠ [] ∧ depthBehind file (j + 1) ≤ depthBehind file i := by
  constructor
  · rintro ⟨hle, hcode, hback, -⟩
    refine ⟨Nat.lt_of_le_of_ne hle ?_, hcode, hback⟩
    rintro rfl
    omega
  · rintro ⟨hlt, hcode, hback⟩
    exact ⟨Nat.le_of_lt hlt, hcode, hback, Or.inl ⟨i, Nat.le_refl i, hlt, hopened⟩⟩

end File

/-- The last line of a declaration whose own line opens a block is the first line of code behind it
that brings the depth back to what it was in front of the declaration, or else the last line of the
file. The scan for it sees what the reading of the file sees, provided that the line of the
declaration reads alone; it does unless it begins in a comment. -/
theorem endLine_of_opened (content : List UInt8) (s : Symbol) (i : Nat) (hs : s ∈ symbols content)
    (hline : s.line = i + 1) :
    let file := lines (Utf8.decode content)
    let Returns := fun j => (lineCode file j).1 ≠ [] ∧ depthBehind file (j + 1) ≤ depthBehind file i
    ((stateBehind (file.take i)).inComment = false → ReadsAlone file i) ∧
    (ReadsAlone file i → depthBehind file i < depthBehind file (i + 1) →
      (∃ j, i < j ∧ j < file.length ∧ Returns j ∧ (∀ m, i < m → m < j → ¬ Returns m) ∧
        s.endLine = j + 1) ∨
      (∀ j, i < j → j < file.length → ¬ Returns j) ∧ s.endLine = file.length) := by
  intro file Returns
  refine ⟨readsAlone_of_not_inComment, fun halone hopened => ?_⟩
  rcases endLine_cases hs hline halone with ⟨j, hle, hlt, hends, hfirst, hend⟩ | ⟨hnone, hend⟩
  · obtain ⟨hbehind, hreturns⟩ := (endsAt_of_opened hopened).mp ⟨hle, hends⟩
    refine Or.inl ⟨j, hbehind, hlt, hreturns, fun m hm hmj hreturns => ?_, hend⟩
    exact hfirst m (Nat.le_of_lt hm) hmj ((endsAt_of_opened hopened).mpr ⟨hm, hreturns⟩).2
  · refine Or.inr ⟨fun j hj hlt hreturns => ?_, hend⟩
    exact hnone j (Nat.le_of_lt hj) hlt ((endsAt_of_opened hopened).mpr ⟨hj, hreturns⟩).2

/-- A comment ends on the line of the declaration, which reads alone all the same. Behind it there
are a line that is blank, one that goes deeper, and one whose brace is in a literal. -/
theorem endLine_of_opened_behind_comment :
    let content := Utf8.encode "/*\n*/ function f() \x7b\n\nif (x) \x7b\n'\x7d'\n\x7d\x7d\n".toList
    let file := lines (Utf8.decode content)
    ReadsAlone file 1 ∧ depthBehind file 1 < depthBehind file (1 + 1) ∧
      ∃ s ∈ symbols content, s.line = 1 + 1 ∧ s.endLine = 5 + 1 := by
  intro content file
  have halone : ReadsAlone file 1 := by decide +kernel
  have hopened : depthBehind file 1 < depthBehind file (1 + 1) := by decide +kernel
  have hreturns : ∀ j < file.length, 1 < j →
      ((lineCode file j).1 ≠ [] ∧ depthBehind file (j + 1) ≤ depthBehind file 1 ↔ j = 5) := by
      decide +kernel
  obtain ⟨s, hs, hline⟩ : ∃ s ∈ symbols content, s.line = (1 : Nat) + 1 := by decide +kernel
  refine ⟨halone, hopened, s, hs, hline, ?_⟩
  rcases (endLine_of_opened content s 1 hs hline).2 halone hopened with
    ⟨j, hj, hlt, hback, -, hend⟩ | ⟨hnone, -⟩
  · rw [hend, (hreturns j hlt hj).mp hback]
    rfl
  · have hlt : 5 < file.length := by decide +kernel
    exact absurd ((hreturns 5 hlt (by decide)).mpr rfl) (hnone 5 (by decide) hlt)

/-- The line of the declaration begins in a comment with an apostrophe. The scan takes what follows
for a literal, so the declaration ends on its own line, though the next line is the one that closes
its block. -/
theorem endLine_of_opened_in_comment :
    let content := Utf8.encode "/*\nit's */ function f() \x7b\n\x7d\n".toList
    let file := lines (Utf8.decode content)
    ¬ ReadsAlone file 1 ∧ depthBehind file 1 < depthBehind file (1 + 1) ∧
      ((lineCode file 2).1 ≠ [] ∧ depthBehind file (2 + 1) ≤ depthBehind file 1) ∧
      ∃ s ∈ symbols content, s.line = 1 + 1 ∧ s.endLine = 1 + 1 := by
  decide +kernel

end CodeAtlas.Outline.Braced
