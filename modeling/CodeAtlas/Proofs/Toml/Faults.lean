import CodeAtlas.Proofs.Toml.Scalar
import CodeAtlas.Toml

/-! # Why a document cannot be read

Reading a document fails in one of three ways. That an integer is too long to be worked out is told
only if so many digits stand in the text, one behind the other or with low lines between them. That
brackets are too many inside of one another is told only if they stand in the text, one behind the
other, and leave no room for what comes then.
-/
namespace CodeAtlas.Toml
open Text

/-- A run of digits and low lines with more digits than an integer in base ten may have. -/
def HasLongNumeral (text : List Char) : Prop :=
  ∃ run, run <:+: text ∧ (∀ c ∈ run, c.isDigit = true ∨ c = '_') ∧
    maxDigits < run.countP Char.isDigit

/-- Brackets of a text that leave no room for what is behind the last of them, given those that are
open around the text already. -/
def Overflows (room : Room) (around text : List Char) : Prop :=
  ∃ front rest brackets, text = front ++ rest ∧ brackets.Sublist front ∧
    (∀ c ∈ brackets, c = '[' ∨ c = '{') ∧ room (around ++ brackets) rest = false

/-- What there is in a text for which reading it fails in the given way. -/
def Justifies (room : Room) (around text : List Char) : Fault → Prop
  | .malformed => True
  | .tooManyDigits => HasLongNumeral text
  | .tooDeep => Overflows room around text

theorem HasLongNumeral.of_suffix {text rest : List Char} (h : HasLongNumeral rest)
    (hrest : rest <:+ text) : HasLongNumeral text := by
  obtain ⟨run, hrun, hdigits⟩ := h
  exact ⟨run, hrun.trans hrest.isInfix, hdigits⟩

theorem Overflows.of_suffix {room : Room} {around text rest : List Char}
    (h : Overflows room around rest) (hrest : rest <:+ text) : Overflows room around text := by
  obtain ⟨before, rfl⟩ := hrest
  obtain ⟨front, behind, brackets, rfl, hsublist, hbrackets, hroom⟩ := h
  refine ⟨before ++ front, behind, brackets, (List.append_assoc ..).symm, ?_, hbrackets, hroom⟩
  exact hsublist.trans (List.sublist_append_right before front)

/-- A bracket that is around a text is one in front of it. -/
theorem Overflows.of_bracket {room : Room} {around rest : List Char} {b : Char}
    (hb : b = '[' ∨ b = '{') (h : Overflows room (around ++ [b]) rest) :
    Overflows room around (b :: rest) := by
  obtain ⟨front, behind, brackets, rfl, hsublist, hbrackets, hroom⟩ := h
  refine ⟨b :: front, behind, b :: brackets, rfl, hsublist.cons_cons b, ?_, ?_⟩
  · exact List.forall_mem_cons.mpr ⟨hb, hbrackets⟩
  · rwa [List.append_assoc] at hroom

theorem Justifies.of_suffix {room : Room} {around text rest : List Char} {fault : Fault}
    (h : Justifies room around rest fault) (hrest : rest <:+ text) :
    Justifies room around text fault := by
  cases fault with
  | malformed => trivial
  | tooManyDigits => exact HasLongNumeral.of_suffix h hrest
  | tooDeep => exact Overflows.of_suffix h hrest

theorem Justifies.of_bracket {room : Room} {around rest : List Char} {b : Char} {fault : Fault}
    (hb : b = '[' ∨ b = '{') (h : Justifies room (around ++ [b]) rest fault) :
    Justifies room around (b :: rest) fault := by
  cases fault with
  | malformed => trivial
  | tooManyDigits => exact HasLongNumeral.of_suffix h (List.suffix_cons b rest)
  | tooDeep => exact Overflows.of_bracket hb h

theorem isSome_digit?_ten (c : Char) : (digit? 10 c).isSome = c.isDigit := by
  unfold digit? hexDigit?
  by_cases hc : c.isDigit = true
  · have hlt : c.toNat - 48 < 10 := by
      have hhigh : c.toNat ≤ 57 := (Bool.and_eq_true_iff.mp hc).2 |> of_decide_eq_true
      omega
    simp [hc, hlt]
  · rw [if_neg hc]
    split_ifs <;> simp [hc]

theorem IsDigits.hasLongNumeral {run text : List Char} {count : Nat} (h : IsDigits 10 run count)
    (hrun : run <:+: text) (hcount : maxDigits < count) : HasLongNumeral text := by
  have hsame : (fun c => (digit? 10 c).isSome) = Char.isDigit := funext isSome_digit?_ten
  refine ⟨run, hrun, fun c hc => ?_, ?_⟩
  · rw [← isSome_digit?_ten]
    exact h.chars c hc
  · rwa [← hsame, h.count_eq]

/-! ## Outcomes of readers -/

/-- What a reader may answer inside of the given brackets: it leaves the end of its text, and fails
for a reason that is in the text. -/
structure Accounts {α : Type} (room : Room) (around text : List Char)
    (answer : Except Fault (α × List Char)) : Prop where
  rest : ∀ a rest, answer = .ok (a, rest) → rest <:+ text
  fault : ∀ fault, answer = .error fault → Justifies room around text fault

namespace Accounts
variable {α β : Type} {room : Room} {around text rest : List Char}

theorem ok {a : α} (h : rest <:+ text) : Accounts room around text (.ok (a, rest)) := by
  constructor
  · intro b other heq
    obtain ⟨-, rfl⟩ := Prod.mk.inj (Except.ok.inj heq)
    exact h
  · intro fault heq
    cases heq

theorem error {fault : Fault} (h : Justifies room around text fault) :
    Accounts (α := α) room around text (.error fault) := by
  constructor
  · intro a rest heq
    cases heq
  · intro other heq
    exact Except.error.inj heq ▸ h

theorem malformed : Accounts (α := α) room around text (.error .malformed) := error trivial

theorem of_suffix {answer : Except Fault (α × List Char)} (h : Accounts room around rest answer)
    (hrest : rest <:+ text) : Accounts room around text answer := by
  constructor
  · intro a behind heq
    exact (h.rest a behind heq).trans hrest
  · intro fault heq
    exact (h.fault fault heq).of_suffix hrest

theorem of_bracket {answer : Except Fault (α × List Char)} {b : Char} (hb : b = '[' ∨ b = '{')
    (h : Accounts room (around ++ [b]) rest answer) : Accounts room around (b :: rest) answer := by
  constructor
  · intro a behind heq
    exact (h.rest a behind heq).trans (List.suffix_cons b rest)
  · intro fault heq
    exact (h.fault fault heq).of_bracket hb

theorem bind {answer : Except Fault (α × List Char)}
    {next : α × List Char → Except Fault (β × List Char)} (h : Accounts room around text answer)
    (hnext : ∀ a rest, rest <:+ text → Accounts room around text (next (a, rest))) :
    Accounts room around text (answer >>= next) := by
  cases answer with
  | ok found => exact hnext found.1 found.2 (h.rest _ _ rfl)
  | error fault => exact error (h.fault fault rfl)

/-- A value that is only put into another form behind a reader. -/
theorem bind_ok {answer : Except Fault (α × List Char)}
    {next : α × List Char → Except Fault (β × List Char)} {f : α → β}
    (h : Accounts room around text answer) (hnext : ∀ a rest, next (a, rest) = .ok (f a, rest)) :
    Accounts room around text (answer >>= next) := by
  apply h.bind
  intro a rest hrest
  rw [hnext]
  exact ok hrest

theorem bind_orMalformed {found : Option α} {next : α → Except Fault (β × List Char)}
    (h : ∀ a, found = some a → Accounts room around text (next a)) :
    Accounts room around text (orMalformed found >>= next) := by
  cases found with
  | none => exact malformed
  | some a => exact h a rfl

theorem orMalformed {scan : Scan α} (h : Takes scan) :
    Accounts room around text (orMalformed (scan text)) := by
  cases hscan : scan text with
  | none => exact malformed
  | some found => exact ok (h text found.1 found.2 hscan)

end Accounts

theorem eq_error_or_of_bind {α β : Type} {answer : Except Fault α} {next : α → Except Fault β}
    {fault : Fault} (h : (answer >>= next) = .error fault) :
    answer = .error fault ∨ ∃ a, answer = .ok a ∧ next a = .error fault := by
  cases answer with
  | error other => exact .inl (congrArg Except.error (Except.error.inj h))
  | ok a => exact .inr ⟨a, rfl, h⟩

theorem eq_malformed_or_of_bind {α β : Type} {found : Option α} {next : α → Except Fault β}
    {fault : Fault} (h : (orMalformed found >>= next) = .error fault) :
    fault = .malformed ∨ ∃ a, found = some a ∧ next a = .error fault := by
  cases found with
  | none => exact .inl (Except.error.inj h).symm
  | some a => exact .inr ⟨a, rfl, h⟩

/-- Whether a reader answers in good order for every text inside of the given brackets. -/
def IsReader {α : Type} (room : Room) (around : List Char) (read : Reader α) : Prop :=
  ∀ text, Accounts room around text (read text)

/-! ## Scalars -/

theorem accounts_value {room : Room} {around text rest : List Char} {d : Decimal}
    (h : decimal text = some (d, rest)) : Accounts room around text (d.value.map (·, rest)) := by
  obtain ⟨hrest, run, hrun, hdigits⟩ := exists_of_decimal h
  unfold Decimal.value
  split_ifs with hwhole hlong
  · exact .error (hdigits.hasLongNumeral hrun hlong)
  all_goals exact .ok hrest

theorem isReader_plain (room : Room) (around : List Char) : IsReader room around plain := by
  intro text
  unfold plain
  split
  next => exact .ok ⟨"true".toList, rfl⟩
  next => exact .ok ⟨"false".toList, rfl⟩
  next =>
    split
    next hdate => exact .ok ((suffix_timeAfterDate _).trans (takes_date _ _ _ hdate))
    next => exact .malformed
    next =>
      split
      next htime => exact .ok (suffix_of_timeOfDay htime)
      next =>
        split
        next hbased => exact .ok (takes_based _ _ _ hbased)
        next =>
          split
          next hdecimal => exact accounts_value hdecimal
          next => exact .orMalformed takes_special

/-! ## Lines and keys -/

section Lines
variable {text rest : List Char}

theorem suffix_of_skipComment (h : skipComment text = some rest) : rest <:+ text := by
  unfold skipComment at h
  split at h
  next behind =>
    apply suffix_cons_of_suffix
    refine List.IsSuffix.trans ?_ (List.dropWhile_suffix (!isControl ·))
    split at h
    next heq => exact Option.some.inj h ▸ List.nil_suffix
    next heq => exact Option.some.inj h ▸ heq ▸ List.suffix_refl _
    next => cases h
  next => exact Option.some.inj h ▸ List.suffix_refl _

theorem suffix_of_skipLines {bound : Nat} (h : skipLines bound text = some rest) :
    rest <:+ text := by
  induction bound generalizing text with
  | zero => cases h
  | succ bound ih =>
    rw [skipLines] at h
    refine List.IsSuffix.trans ?_ (List.dropWhile_suffix fun c => isSpace c || c == '\n')
    split at h
    next heq =>
      obtain ⟨behind, hcomment, h⟩ := Option.bind_eq_some_iff.mp h
      rw [heq]
      exact (ih h).trans (suffix_of_skipComment hcomment)
    next => exact Option.some.inj h ▸ List.suffix_refl _

theorem takes_keyPart : Takes keyPart := by
  intro text name rest h
  unfold keyPart at h
  split at h
  next => exact takes_lineString _ _ _ h
  next heq =>
    obtain ⟨-, rfl⟩ := Prod.mk.inj (Option.some.inj h)
    rw [List.span_eq_takeWhile_dropWhile] at heq
    exact (Prod.mk.inj heq).2 ▸ List.dropWhile_suffix isBare

theorem takes_keyRest (bound : Nat) : Takes (keyRest bound) := by
  induction bound with
  | zero =>
    intro text names rest h
    cases h
  | succ bound ih =>
    intro text names rest h
    rw [keyRest] at h
    refine List.IsSuffix.trans ?_ (List.dropWhile_suffix isSpace)
    split at h
    next heq =>
      rw [heq]
      simp only [Option.bind_eq_bind, Option.bind_eq_some_iff] at h
      obtain ⟨⟨name, r₁⟩, hname, ⟨others, r₂⟩, hothers, h⟩ := h
      obtain ⟨-, rfl⟩ := Prod.mk.inj (Option.some.inj h)
      apply suffix_cons_of_suffix
      exact (ih _ _ _ hothers).trans ((takes_keyPart _ _ _ hname).trans
        (List.dropWhile_suffix isSpace))
    next => exact (Prod.mk.inj (Option.some.inj h)).2 ▸ List.suffix_refl _

theorem takes_key : Takes key := by
  intro text names rest h
  simp only [key, Option.bind_eq_bind, Option.bind_eq_some_iff] at h
  obtain ⟨⟨name, r₁⟩, hname, ⟨others, r₂⟩, hothers, h⟩ := h
  obtain ⟨-, rfl⟩ := Prod.mk.inj (Option.some.inj h)
  exact (takes_keyRest _ _ _ _ hothers).trans (takes_keyPart _ _ _ hname)

theorem takes_header (close : String) (table : Key → Statement) : Takes (header close table) := by
  intro text s rest h
  simp only [header, Option.bind_eq_bind, Option.bind_eq_some_iff] at h
  obtain ⟨⟨names, r₁⟩, hkey, r₂, hclose, h⟩ := h
  obtain ⟨-, rfl⟩ := Prod.mk.inj (Option.some.inj h)
  exact (suffix_of_literal hclose).trans
    ((takes_key _ _ _ hkey).trans (List.dropWhile_suffix isSpace))

theorem suffix_of_lineEnd (h : lineEnd text = some rest) : rest <:+ text := by
  obtain ⟨behind, hcomment, h⟩ := Option.bind_eq_some_iff.mp h
  refine List.IsSuffix.trans ?_ ((suffix_of_skipComment hcomment).trans
    (List.dropWhile_suffix isSpace))
  split at h
  next => exact Option.some.inj h ▸ List.suffix_refl _
  next => exact Option.some.inj h ▸ List.suffix_cons _ _
  next => cases h

end Lines

/-! ## Values and statements -/

section Values
variable {room : Room} {around : List Char} {value : Reader Value}

theorem isReader_pair (hvalue : IsReader room around value) :
    IsReader room around (pair value) := by
  intro text
  apply Accounts.bind (.orMalformed takes_key)
  intro names rest hrest
  apply Accounts.bind_orMalformed
  intro behind hequals
  have hbehind := (List.dropWhile_suffix isSpace).trans ((suffix_of_literal hequals).trans hrest)
  exact Accounts.bind_ok ((hvalue _).of_suffix hbehind) fun _ _ => rfl

/-- Every item is read from what the items before it have left. -/
theorem isReader_items (hvalue : IsReader room around value) (bound : Nat) :
    IsReader room around (items value bound) := by
  induction bound with
  | zero => exact fun text => .malformed
  | succ bound ih =>
    intro text
    rw [items]
    apply Accounts.bind_orMalformed
    intro first hfirst
    apply Accounts.of_suffix _ (suffix_of_skipLines hfirst)
    split
    next => exact .ok (List.suffix_cons _ _)
    next =>
      apply Accounts.bind (hvalue first)
      intro v rest hrest
      apply Accounts.bind_orMalformed
      intro behind hbehind
      apply Accounts.of_suffix _ ((suffix_of_skipLines hbehind).trans hrest)
      split
      next others =>
        exact Accounts.bind_ok ((ih others).of_suffix (List.suffix_cons _ _)) fun _ _ => rfl
      next => exact .ok (List.suffix_cons _ _)
      next => exact .malformed

theorem isReader_pairs (hvalue : IsReader room around value) (bound : Nat) (d : Document) :
    IsReader room around (pairs value bound d) := by
  induction bound generalizing d with
  | zero => exact fun text => .malformed
  | succ bound ih =>
    intro text
    rw [pairs]
    apply Accounts.bind ((isReader_pair hvalue _).of_suffix (List.dropWhile_suffix isSpace))
    intro pair rest hrest
    apply Accounts.bind_orMalformed
    intro d' _
    apply Accounts.of_suffix _ ((List.dropWhile_suffix isSpace).trans hrest)
    generalize rest.dropWhile isSpace = behind
    split
    next others => exact (ih d' others).of_suffix (List.suffix_cons _ _)
    next => exact .ok (List.suffix_cons _ _)
    next => exact .malformed

/-- What is inside of a bracket is read with one more bracket around it. -/
theorem isReader_value (room : Room) (bound : Nat) (around : List Char) :
    IsReader room around (Toml.value room bound around) := by
  induction bound generalizing around with
  | zero => exact fun text => .malformed
  | succ bound ih =>
    intro text
    unfold Toml.value
    split_ifs with hroom
    · have hfull : room (around ++ []) text = false := by simpa using hroom
      exact .error ⟨[], text, [], rfl, List.Sublist.slnil, by simp, hfull⟩
    · split
      next behind =>
        have hitems := isReader_items (ih (around ++ ['['])) (behind.length + 1) behind
        exact Accounts.bind_ok (hitems.of_bracket (.inl rfl)) fun _ _ => rfl
      next behind =>
        generalize hinside : behind.dropWhile isSpace = inside
        have hsuffix : inside <:+ behind := hinside ▸ List.dropWhile_suffix isSpace
        split
        next => exact .ok (suffix_cons_of_suffix ((List.suffix_cons _ _).trans hsuffix))
        next =>
          have hpairs := isReader_pairs (ih (around ++ ['{'])) (inside.length + 1) {} inside
          exact Accounts.bind_ok ((hpairs.of_suffix hsuffix).of_bracket (.inr rfl)) fun _ _ => rfl
      next =>
        split_ifs
        · exact Accounts.bind_ok (.orMalformed takes_string) fun _ _ => rfl
        · exact isReader_plain room around _
      next => exact .malformed

end Values

theorem isReader_statement (room : Room) : IsReader room [] (statement room) := by
  intro text
  unfold statement
  split
  next =>
    apply Accounts.of_suffix (.orMalformed (takes_header _ _))
    exact suffix_cons_of_suffix (List.suffix_cons _ _)
  next => exact (Accounts.orMalformed (takes_header _ _)).of_suffix (List.suffix_cons _ _)
  next =>
    exact Accounts.bind_ok (isReader_pair (isReader_value room _ []) _) fun _ _ => rfl

/-! ## Documents -/

/-- Every statement is read from what the statements before it have left. -/
theorem justifies_of_documentFrom {room : Room} {bound : Nat} {d : Document} {text : List Char}
    {fault : Fault} (h : documentFrom room bound d text = .error fault) :
    Justifies room [] text fault := by
  induction bound generalizing d text with
  | zero => exact Except.error.inj h ▸ trivial
  | succ bound ih =>
    rw [documentFrom] at h
    refine Justifies.of_suffix ?_ (List.dropWhile_suffix isSpace)
    split at h
    next => cases h
    next c rest heq =>
      rw [heq]
      split_ifs at h
      · exact (ih h).of_suffix (List.suffix_cons _ _)
      · rcases eq_malformed_or_of_bind h with rfl | ⟨behind, hend, h⟩
        · trivial
        · exact (ih h).of_suffix (suffix_of_lineEnd hend)
      · rcases eq_error_or_of_bind h with hstatement | ⟨⟨s, behind⟩, hstatement, h⟩
        · exact (isReader_statement room _).fault _ hstatement
        · rcases eq_malformed_or_of_bind h with rfl | ⟨d', -, h⟩
          · trivial
          · rcases eq_malformed_or_of_bind h with rfl | ⟨next, hend, h⟩
            · trivial
            · have hbehind := (isReader_statement room _).rest _ _ hstatement
              exact (ih h).of_suffix ((suffix_of_lineEnd hend).trans hbehind)

/-- A run without line feeds is not touched when line ends are folded. -/
theorem isPrefix_of_foldLineEnds {run text : List Char} (hrun : '\n' ∉ run)
    (h : run <+: foldLineEnds text) : run <+: text := by
  fun_induction foldLineEnds text generalizing run with
  | case1 => exact h
  | case2 rest ih =>
    cases run with
    | nil => exact List.nil_prefix
    | cons c run =>
      obtain ⟨rfl, -⟩ := List.cons_prefix_cons.mp h
      exact absurd List.mem_cons_self hrun
  | case3 c rest _ ih =>
    cases run with
    | nil => exact List.nil_prefix
    | cons d run =>
      obtain ⟨rfl, hrest⟩ := List.cons_prefix_cons.mp h
      exact List.cons_prefix_cons.mpr ⟨rfl,
        ih (fun hmem => hrun (List.mem_cons_of_mem _ hmem)) hrest⟩

theorem isInfix_of_foldLineEnds {run text : List Char} (hrun : '\n' ∉ run)
    (h : run <:+: foldLineEnds text) : run <:+: text := by
  fun_induction foldLineEnds text with
  | case1 => exact h
  | case2 rest ih =>
    rcases List.infix_cons_iff.mp h with hhere | hlater
    · have hfolded : run <+: foldLineEnds ('\r' :: '\n' :: rest) := by
        simpa [foldLineEnds] using hhere
      exact (isPrefix_of_foldLineEnds hrun hfolded).isInfix
    · exact ((ih hlater).trans (List.suffix_cons _ _).isInfix).trans (List.suffix_cons _ _).isInfix
  | case3 c rest hfold ih =>
    rcases List.infix_cons_iff.mp h with hhere | hlater
    · have hfolded : run <+: foldLineEnds (c :: rest) := by rwa [foldLineEnds.eq_3 _ _ hfold]
      exact (isPrefix_of_foldLineEnds hrun hfolded).isInfix
    · exact (ih hlater).trans (List.suffix_cons _ _).isInfix

theorem justifies_of_parse {room : Room} {text : List Char} {fault : Fault}
    (h : parse room text = .error fault) : Justifies room [] (foldLineEnds text) fault := by
  rcases eq_error_or_of_bind h with hdocument | ⟨d, -, hfields⟩
  · exact justifies_of_documentFrom hdocument
  · cases hfields

/-- An integer that is too long stands in the text as it was given. -/
theorem hasLongNumeral_of_parse {room : Room} {text : List Char}
    (h : parse room text = .error .tooManyDigits) : HasLongNumeral text := by
  obtain ⟨run, hinfix, hchars, hcount⟩ := justifies_of_parse h
  have hfeed : '\n' ∉ run := fun hmem => by simpa using hchars _ hmem
  exact ⟨run, isInfix_of_foldLineEnds hfeed hinfix, hchars, hcount⟩

end CodeAtlas.Toml
