import CodeAtlas.Proofs.Imports.Line
import CodeAtlas.Proofs.Text.BoundedLines
import Mathlib.Data.List.Chain
import Mathlib.Data.List.Find

/-! # Import statements in a line

An import, an export or a call can be written with any blanks between its tokens, line boundaries
included. What a line shows of it is what stands behind the last boundary in front of its specifier
and before the first boundary behind it. Of the statements that share a line the three recognisers
find the first one of each kind that is shown there.
-/
namespace CodeAtlas.Imports.Script
open Text

/-! ## Statements -/

/-- The three ways to name a module. -/
inductive Kind where
  | source
  | effect
  | call
deriving DecidableEq

/-- The word in front of the specifier. -/
def Kind.word : Kind → List Char
  | .source => "from".toList
  | .effect => "import".toList
  | .call => "require".toList

/-- The leads of statements of this kind. -/
def Kind.IsLead : Kind → List Char → Prop
  | .source => IsSource
  | .effect => IsEffect
  | .call => IsCall

/-- The tokens around a specifier, with the blanks between them. -/
inductive Form where
  | source (keyword : Keyword) (left : { gap // IsGap gap })
      (clause : { clause // isCode clause = true }) (right gap : { gap // IsGap gap })
  | effect (gap : { gap // IsGap gap })
  | call (left inner right : { room : List Char // room.all isBlank = true })

namespace Form

def kind : Form → Kind
  | source .. => .source
  | effect .. => .effect
  | call .. => .call

/-- What stands in front of the word that leads to the specifier. -/
def head : Form → List Char
  | source keyword left clause right _ => keyword.text ++ (left.1 ++ (clause.1 ++ right.1))
  | _ => []

/-- What stands between that word and the specifier. -/
def rest : Form → List Char
  | source _ _ _ _ gap => gap.1
  | effect gap => gap.1
  | call left inner _ => left.1 ++ '(' :: inner.1

/-- What stands in front of the specifier. -/
def lead (form : Form) : List Char := form.head ++ (form.kind.word ++ form.rest)

/-- What stands behind the specifier. -/
def trail : Form → List Char
  | call _ _ right => right.1 ++ [')']
  | _ => []

end Form

/-- What may stand between statements. -/
def isFree (c : Char) : Bool := isBlank c || c == ';'

/-- What keeps statements apart. -/
def isSeparator (c : Char) : Bool := c == ';' || isLineBoundary c

/-- A statement with what stands in front of it. -/
structure Statement where
  before : List Char
  form : Form
  quoted : Quoted
  isFree_before : before.all isFree = true
  not_isBroken_specifier : isBroken quoted.specifier = false

namespace Statement

def kind (s : Statement) : Kind := s.form.kind

/-- All that stands in front of the specifier. -/
def lead (s : Statement) : List Char := s.before ++ s.form.lead

def trail (s : Statement) : List Char := s.form.trail

def specifier (s : Statement) : List Char := s.quoted.specifier

/-- Whether the line of the specifier shows enough of the statement: the word in front of the
specifier and all that follows the word, and for an import or export a keyword, for an import for
effect nothing in front of it. -/
def isShown (s : Statement) : Bool :=
  !isBroken s.form.rest && !isBroken s.trail && match s.kind with
    | .source => opens (lastLine s.form.lead)
    | .effect => (lastLine s.before).all isBlank
    | .call => true

/-- Whether the specifier cannot end like a lead. -/
def isPlain (s : Statement) : Bool := s.specifier.all fun c => !isBlank c && c != '('

/-- Whether the specifiers of two consecutive statements are on one line. -/
def sameLine (s t : Statement) : Bool := !isBroken (s.trail ++ t.lead)

end Statement

/-- The line of statements that share one, where `front` is left over from the statement before them
and `tail` goes on behind them. -/
def rowLine (front : List Char) (row : List Statement) (tail : List Char) : List Char :=
  match row with
  | [] => firstLine (front ++ tail)
  | s :: row => lastLine (front ++ s.lead) ++ (s.quoted.text ++ rowLine s.trail row tail)

/-- The statements of a line that are found, the first of each kind. -/
def found (row : List Statement) : List Statement :=
  [Kind.source, Kind.effect, Kind.call].filterMap fun kind => row.find? fun s =>
    s.kind == kind && s.isShown

/-! ## The text of a statement -/

theorem Kind.not_isBroken_word (kind : Kind) : isBroken kind.word = false := by
  cases kind <;> decide

/-- The last character of a lead that is no blank. -/
def Kind.last : Kind → Char
  | .source => 'm'
  | .effect => 't'
  | .call => '('

namespace Kind.IsLead
variable {kind : Kind} {lead : List Char}

theorem isCode (h : kind.IsLead lead) : isCode lead = true := by
  cases kind with
  | source => exact reads_fromClause.isCode_lead h
  | effect => exact reads_sideEffect.isCode_lead h
  | call => exact reads_require.isCode_lead h

theorem exists_last (h : kind.IsLead lead) :
    ∃ front room, room.all isBlank = true ∧ lead = front ++ kind.last :: room := by
  cases kind with
  | source =>
    obtain ⟨gap, hgap, rfl⟩ := h
    exact ⟨['f', 'r', 'o'], gap, List.all_eq_true.mpr hgap.2, rfl⟩
  | effect =>
    obtain ⟨room, gap, -, hgap, rfl⟩ := h
    exact ⟨room ++ ['i', 'm', 'p', 'o', 'r'], gap,
      List.all_eq_true.mpr hgap.2, by rw [List.append_assoc]; rfl⟩
  | call =>
    obtain ⟨room, room', -, hroom', rfl⟩ := h
    exact ⟨"require".toList ++ room, room', hroom', by rw [List.append_assoc]; rfl⟩

/-- The letter that the three words have in common. -/
theorem mem (h : kind.IsLead lead) : 'r' ∈ lead := by
  cases kind with
  | source =>
    obtain ⟨gap, -, rfl⟩ := h
    exact List.mem_append_left _ (by decide)
  | effect =>
    obtain ⟨room, gap, -, -, rfl⟩ := h
    exact List.mem_append_right _ (List.mem_append_left _ (by decide))
  | call =>
    obtain ⟨room, room', -, -, rfl⟩ := h
    exact List.mem_append_left _ (by decide)

end Kind.IsLead

theorem notMem_of_isBlank {room : List Char} (h : ∀ c ∈ room, isBlank c = true) {c : Char}
    (hc : isBlank c = false) : c ∉ room := by
  intro hmem
  rw [h c hmem] at hc
  cases hc

namespace Form

theorem isLead (form : Form) : form.kind.IsLead (form.kind.word ++ form.rest) := by
  cases form with
  | source keyword left clause right gap => exact ⟨gap.1, gap.2, rfl⟩
  | effect gap => exact ⟨[], gap.1, rfl, gap.2, rfl⟩
  | call left inner right => exact ⟨left.1, inner.1, left.2, inner.2, rfl⟩

theorem notMem_rest (form : Form) : 'r' ∉ form.rest := by
  cases form with
  | source keyword left clause right gap => exact notMem_of_isBlank gap.2.2 (by decide)
  | effect gap => exact notMem_of_isBlank gap.2.2 (by decide)
  | call left inner right =>
    rw [rest, List.mem_append, List.mem_cons, not_or, not_or]
    exact ⟨notMem_of_isBlank (List.all_eq_true.mp left.2) (by decide), by decide,
      notMem_of_isBlank (List.all_eq_true.mp inner.2) (by decide)⟩

theorem isCode_head (form : Form) : isCode form.head = true := by
  cases form with
  | source keyword left clause right gap =>
    have hkeyword : isCode keyword.text = true := by cases keyword <;> rfl
    rw [head, isCode_append, isCode_append, isCode_append, hkeyword, isCode_of_isBlank left.2.2,
      clause.2, isCode_of_isBlank right.2.2]
    rfl
  | effect | call => rfl

theorem isCode_lead (form : Form) : isCode form.lead = true := by
  rw [lead, isCode_append, form.isCode_head, form.isLead.isCode]
  rfl

theorem isCode_trail (form : Form) : isCode form.trail = true := by
  cases form with
  | source | effect => rfl
  | call left inner right =>
    rw [trail, isCode_append, isCode_room right.2]
    rfl

end Form

theorem isCode_of_isFree {text : List Char} (h : text.all isFree = true) : isCode text = true := by
  rw [isCode, List.all_eq_true]
  intro c hc
  have hfree := List.all_eq_true.mp h c hc
  rw [isFree, Bool.or_eq_true, beq_iff_eq] at hfree
  rcases hfree with hblank | rfl
  · rw [isMark_of_isBlank hblank]
    rfl
  · rfl

theorem isCode_of_mem {text text' : List Char} (h : isCode text = true)
    (hmem : ∀ c ∈ text', c ∈ text) : isCode text' = true := by
  rw [isCode, List.all_eq_true] at h ⊢
  exact fun c hc => h c (hmem c hc)

theorem isCode_lastLine {text : List Char} (h : isCode text = true) :
    isCode (lastLine text) = true :=
  isCode_of_mem h fun _ => mem_of_mem_lastLine

theorem isCode_firstLine {text : List Char} (h : isCode text = true) :
    isCode (firstLine text) = true :=
  isCode_of_mem h fun _ => mem_of_mem_firstLine

namespace Statement
variable {s : Statement} {front : List Char}

theorem isCode_lead (s : Statement) : isCode s.lead = true := by
  rw [lead, isCode_append, isCode_of_isFree s.isFree_before, s.form.isCode_lead]
  rfl

theorem isCode_trail (s : Statement) : isCode s.trail = true := s.form.isCode_trail

theorem isCode_front (s : Statement) (h : isCode front = true) :
    isCode (front ++ s.lead) = true := by
  rw [isCode_append, h, s.isCode_lead]
  rfl

/-! ## What a line shows of a statement -/

theorem lastLine_lead (h : isBroken s.form.rest = false) (front : List Char) :
    lastLine (front ++ s.lead) = lastLine (front ++ (s.before ++ s.form.head)) ++
      (s.kind.word ++ s.form.rest) := by
  have hword : isBroken (s.kind.word ++ s.form.rest) = false := by
    rw [isBroken_append, s.kind.not_isBroken_word, h]; rfl
  rw [← lastLine_append _ hword]
  simp only [lead, Form.lead, kind, List.append_assoc]

/-- The word that leads to the specifier is on its line only if no boundary comes between them. -/
theorem not_isBroken_rest_of_mem (h : 'r' ∈ lastLine (front ++ s.lead)) :
    isBroken s.form.rest = false := by
  by_contra hbroken
  rw [Bool.not_eq_false] at hbroken
  rw [lead, Form.lead, ← List.append_assoc, ← List.append_assoc, ← List.append_assoc,
    lastLine_append_of_isBroken _ hbroken] at h
  exact s.form.notMem_rest (mem_of_mem_lastLine h)

theorem getLast?_trimEnd {c : Char} (hc : isBlank c = false) (front : List Char) {room : List Char}
    (hroom : room.all isBlank = true) : (trimEnd (front ++ c :: room)).getLast? = some c := by
  have hall : ∀ d ∈ room.reverse, isBlank d = true := by simpa using hroom
  simp [trimEnd, List.dropWhile_append_of_pos hall, hc]

/-- What the line ends with in front of the specifier tells the kind of the statement. -/
theorem kind_eq_of_endsIn {kind : Kind} (h : EndsIn kind.IsLead (lastLine (front ++ s.lead))) :
    s.kind = kind := by
  obtain ⟨before, lead, hlead, hline⟩ := h
  obtain ⟨before', room, hroom, rfl⟩ := hlead.exists_last
  obtain ⟨own, room', hroom', hown⟩ := s.form.isLead.exists_last
  obtain ⟨front', hfront'⟩ := exists_append_lastLine (front ++ s.lead)
  have hlast (kind : Kind) : isBlank kind.last = false := by cases kind <;> decide
  have hseen := getLast?_trimEnd (hlast kind) (front' ++ (before ++ before')) hroom
  have hhere := getLast?_trimEnd (hlast s.kind) (front ++ (s.before ++ (s.form.head ++ own))) hroom'
  have htext : front' ++ (before ++ before') ++ kind.last :: room =
      front ++ (s.before ++ (s.form.head ++ own)) ++ s.kind.last :: room' := by
    rw [List.append_assoc, List.append_assoc, ← hline, ← hfront', Statement.lead, Form.lead, hown]
    simp only [List.append_assoc]
    rfl
  rw [htext, hhere] at hseen
  have hsame := Option.some.inj hseen
  revert hsame
  cases s.kind <;> cases kind <;> decide

/-- A lead of a kind is seen in front of the specifier just if the statement is of this kind and the
line shows it from its word on. -/
theorem endsIn_iff (front : List Char) {kind : Kind} :
    EndsIn kind.IsLead (lastLine (front ++ s.lead)) ↔ s.kind = kind ∧
      isBroken s.form.rest = false := by
  constructor
  · intro h
    have hkind := kind_eq_of_endsIn h
    obtain ⟨before, lead, hlead, hline⟩ := h
    have hmem : 'r' ∈ lastLine (front ++ s.lead) := hline ▸ List.mem_append_right before hlead.mem
    exact ⟨hkind, not_isBroken_rest_of_mem hmem⟩
  · rintro ⟨rfl, hrest⟩
    exact ⟨_, _, s.form.isLead, lastLine_lead hrest front⟩

/-- Statements that are kept apart on one line have something between them. -/
theorem not_all_isBlank_before (h : s.before.any isSeparator = true)
    (hline : isBroken s.before = false) : s.before.all isBlank = false := by
  obtain ⟨c, hc, hseparator⟩ := List.any_eq_true.mp h
  rw [isSeparator, isBroken_eq_false_iff.mp hline c hc, Bool.or_false, beq_iff_eq] at hseparator
  subst hseparator
  exact List.all_eq_false.mpr ⟨';', hc, by decide⟩

/-- Hence what is left of the statement before makes no difference to whether something stands in
front of this one. -/
theorem all_isBlank_lastLine (h : front = [] ∨ s.before.any isSeparator = true) :
    (lastLine (front ++ s.before)).all isBlank = (lastLine s.before).all isBlank := by
  cases hbroken : isBroken s.before with
  | true => rw [lastLine_append_of_isBroken _ hbroken]
  | false =>
    rcases h with rfl | h
    · rfl
    · rw [lastLine_append _ hbroken, lastLine_of_not_isBroken hbroken, List.all_append,
        not_all_isBlank_before h hbroken, Bool.and_false]

theorem exists_form_effect (h : s.kind = .effect) : ∃ gap, s.form = .effect gap := by
  rw [kind] at h
  cases hform : s.form with
  | effect gap => exact ⟨gap, rfl⟩
  | source | call => rw [hform] at h; cases h

/-- The blanks in a text do not hide where its only word begins. -/
theorem all_isBlank_of_append {front room word gap gap' : List Char}
    (hroom : room.all isBlank = true) (hgap : IsGap gap) (hgap' : IsGap gap')
    (h : front ++ (word ++ gap) = room ++ (word ++ gap')) : front.all isBlank = true := by
  have hnone {blank : List Char} (hblank : ∀ c ∈ blank, isBlank c = true) :
      blank.filter (!isBlank ·) = [] := by
    simpa [List.filter_eq_nil_iff] using hblank
  have hsolid := congrArg (List.filter (!isBlank ·)) h
  simp only [List.filter_append, hnone hgap.2, hnone hgap'.2, hnone (List.all_eq_true.mp hroom),
    List.append_nil, List.nil_append, List.append_left_eq_self] at hsolid
  simpa [List.filter_eq_nil_iff] using hsolid

/-- An import for effect is read off its line just if it is shown there. -/
theorem isEffect_iff (h : front = [] ∨ s.before.any isSeparator = true) :
    IsEffect (lastLine (front ++ s.lead)) ↔ s.kind = .effect ∧ s.isShown = true := by
  have hshown {gap : { gap // IsGap gap }} (hform : s.form = .effect gap) : s.isShown = true ↔
      isBroken s.form.rest = false ∧ (lastLine (front ++ s.before)).all isBlank = true := by
    rw [all_isBlank_lastLine h, isShown, kind, trail, hform]
    simp [Form.kind, Form.trail, isBroken]
  have hline {gap : { gap // IsGap gap }} (hform : s.form = .effect gap)
      (hrest : isBroken s.form.rest = false) :
      lastLine (front ++ s.lead) = lastLine (front ++ s.before) ++ ("import".toList ++ gap.1) := by
    have hhead : (Form.effect gap).head = [] := rfl
    rw [lastLine_lead hrest, kind, hform, hhead, List.append_nil]
    rfl
  constructor
  · intro heffect
    have hends : EndsIn Kind.effect.IsLead (lastLine (front ++ s.lead)) := ⟨[], _, heffect, rfl⟩
    obtain ⟨hkind, hrest⟩ := (endsIn_iff front).mp hends
    obtain ⟨gap, hform⟩ := exists_form_effect hkind
    obtain ⟨room, gap', hroom, hgap', hlead⟩ := heffect
    rw [hline hform hrest] at hlead
    exact ⟨hkind, (hshown hform).mpr ⟨hrest, all_isBlank_of_append hroom gap.2 hgap' hlead⟩⟩
  · rintro ⟨hkind, hseen⟩
    obtain ⟨gap, hform⟩ := exists_form_effect hkind
    obtain ⟨hrest, hblank⟩ := (hshown hform).mp hseen
    exact ⟨_, gap.1, hblank, gap.2, hline hform hrest⟩

theorem opens_lead (h : s.kind = .source) (before : List Char) :
    opens (before ++ s.form.lead) = true := by
  rw [kind] at h
  cases hform : s.form with
  | source keyword left clause right gap =>
    obtain ⟨c, left', hleft⟩ := List.exists_cons_of_ne_nil left.2.1
    have hc : isBlank c = true := left.2.2 c (hleft ▸ List.mem_cons_self)
    rw [Form.lead, Form.head, hleft, List.append_assoc, List.cons_append]
    exact opens_iff.mpr ⟨before, keyword, c, _, hc, rfl⟩
  | effect | call => rw [hform] at h; cases h

/-- Whether a keyword is seen does not hang on what stands in front of the statement. -/
theorem opens_lastLine (h : s.kind = .source) (front : List Char) :
    opens (lastLine (front ++ s.lead)) = opens (lastLine s.form.lead) := by
  rw [lead, ← List.append_assoc]
  cases hbroken : isBroken s.form.lead with
  | true => rw [lastLine_append_of_isBroken _ hbroken]
  | false =>
    rw [lastLine_append _ hbroken, lastLine_of_not_isBroken hbroken, opens_lead h]
    exact (opens_lead h []).symm

theorem isShown_source (h : s.kind = .source) :
    s.isShown = (!isBroken s.form.rest && opens (lastLine s.form.lead)) := by
  have htrail : isBroken s.trail = false := by
    rw [kind] at h
    rw [trail]
    cases hform : s.form with
    | source | effect => rfl
    | call => rw [hform] at h; cases h
  rw [isShown, htrail, h, Bool.not_false, Bool.and_true]

end Statement

/-! ## What is found on a line -/

/-- The statements share a line. If there are several of them then no specifier ends like a lead. -/
structure IsRow (front : List Char) (row : List Statement) : Prop where
  isCode_front : isCode front = true
  chain : row.IsChain fun s t => s.sameLine t = true
  plain : row.length ≤ 1 ∨ ∀ s ∈ row, s.isPlain = true

theorem Kind.IsLead.exists_mem {kind : Kind} {lead : List Char} (h : kind.IsLead lead) :
    ∃ c ∈ lead, isBlank c = true ∨ c = '(' := by
  have hgap {gap : List Char} (hgap : IsGap gap) (front : List Char) :
      ∃ c ∈ front ++ gap, isBlank c = true ∨ c = '(' := by
    obtain ⟨c, gap, rfl⟩ := List.exists_cons_of_ne_nil hgap.1
    exact ⟨c, List.mem_append_right _ List.mem_cons_self, .inl (hgap.2 c List.mem_cons_self)⟩
  cases kind with
  | source =>
    obtain ⟨gap, hgap', rfl⟩ := h
    exact hgap hgap' _
  | effect =>
    obtain ⟨room, gap, -, hgap', rfl⟩ := h
    rw [← List.append_assoc]
    exact hgap hgap' _
  | call =>
    obtain ⟨room, room', -, -, rfl⟩ := h
    exact ⟨'(', List.mem_append_right _ (List.mem_append_right _ List.mem_cons_self), .inr rfl⟩

theorem Statement.not_endsIn_of_isPlain {s : Statement} (h : s.isPlain = true) {kind : Kind} :
    ¬EndsIn kind.IsLead s.specifier := by
  rintro ⟨front, lead, hlead, hspecifier⟩
  obtain ⟨c, hc, hlike⟩ := hlead.exists_mem
  have hplain := List.all_eq_true.mp h c (hspecifier ▸ List.mem_append_right front hc)
  rw [Bool.and_eq_true, Bool.not_eq_true', bne_iff_ne] at hplain
  rcases hlike with hblank | hopening
  · rw [hblank] at hplain
    cases hplain.1
  · exact hplain.2 hopening

section Row
variable {front tail : List Char} {s t : Statement} {row : List Statement}

theorem IsRow.next (h : IsRow front (s :: row)) : IsRow s.trail row where
  isCode_front := s.isCode_trail
  chain := h.chain.tail
  plain := by
    rcases h.plain with hone | hall
    · exact .inl (by rw [List.length_cons] at hone; omega)
    · exact .inr (List.forall_mem_cons.mp hall).2

/-- A specifier with another one behind it is plain. -/
theorem IsRow.eq_nil_or_isPlain (h : IsRow front (s :: row)) : row = [] ∨ s.isPlain = true := by
  rcases h.plain with hone | hall
  · exact .inl (List.eq_nil_of_length_eq_zero (by rw [List.length_cons] at hone; omega))
  · exact .inr (List.forall_mem_cons.mp hall).1

theorem isCode_rowLine_nil (hfront : isCode front = true) (htail : isCode tail = true) :
    isCode (rowLine front [] tail) = true :=
  isCode_firstLine (by rw [isCode_append, hfront, htail]; rfl)

theorem IsRow.not_isBroken (h : IsRow front (s :: t :: row)) :
    isBroken (s.trail ++ t.lead) = false :=
  (Bool.not_eq_true' _).mp (List.isChain_cons_cons.mp h.chain).1

/-- The end of a call is on the line of its specifier unless a boundary comes between them. -/
theorem isClosed_rowLine_iff (hrow : IsRow front (s :: row)) (hkind : s.kind = .call) :
    IsClosed (rowLine s.trail row tail) ↔ isBroken s.trail = false := by
  obtain ⟨right, hright, htrail⟩ : ∃ right : List Char, right.all isBlank = true ∧
      s.trail = right ++ [')'] := by
    rw [Statement.kind] at hkind
    rw [Statement.trail]
    cases hform : s.form with
    | call left inner right => exact ⟨right.1, right.2, rfl⟩
    | source | effect => rw [hform] at hkind; cases hkind
  cases row with
  | nil =>
    rw [rowLine]
    constructor
    · rintro ⟨room, rest, -, hclosed⟩
      by_contra hbroken
      have hparenthesis : isBroken [')'] = false := rfl
      rw [Bool.not_eq_false, htrail, isBroken_append, hparenthesis, Bool.or_false] at hbroken
      rw [htrail, List.append_assoc, firstLine_append_of_isBroken hbroken] at hclosed
      have hmem : ')' ∈ firstLine right := hclosed ▸ List.mem_append_right room List.mem_cons_self
      exact absurd (List.all_eq_true.mp hright _ (mem_of_mem_firstLine hmem)) (by decide)
    · intro hunbroken
      rw [firstLine_append hunbroken, htrail, List.append_assoc]
      exact ⟨right, _, hright, rfl⟩
  | cons t row =>
    have hline := hrow.not_isBroken
    have hunbroken : isBroken s.trail = false := by
      rw [isBroken_append, Bool.or_eq_false_iff] at hline
      exact hline.1
    refine ⟨fun _ => hunbroken, fun _ => ?_⟩
    rw [rowLine, lastLine_of_not_isBroken hline, htrail, List.append_assoc, List.append_assoc]
    exact ⟨right, _, hright, rfl⟩

/-- Behind the first specifier of a line there is no boundary before the last one. -/
theorem IsRow.not_isBroken_lead (h : IsRow front (s :: row)) :
    ∀ t ∈ row, isBroken t.lead = false := by
  induction row generalizing front s with
  | nil => exact fun t ht => absurd ht List.not_mem_nil
  | cons t row ih =>
    have hline := h.not_isBroken
    rw [isBroken_append, Bool.or_eq_false_iff] at hline
    exact List.forall_mem_cons.mpr ⟨hline.2, ih h.next⟩

/-- A search finds the first statement that has the right lead and rest. -/
theorem Reads.search_rowLine {recognise : List Char → Option (List Char)}
    {Lead Rest : List Char → Prop} (hr : Reads recognise Lead Rest) {p : Statement → Bool}
    (htail : isCode tail = true) (hp : ∀ {front s row}, IsRow front (s :: row) →
      (EndsIn Lead (lastLine (front ++ s.lead)) ∧ Rest (rowLine s.trail row tail) ↔ p s = true))
    (hplain : ∀ s : Statement, s.isPlain = true → ¬EndsIn Lead s.specifier)
    (hrow : IsRow front row) :
    search recognise (rowLine front row tail) = (row.find? p).map Statement.specifier := by
  induction row generalizing front with
  | nil => exact hr.search_of_isCode (isCode_rowLine_nil hrow.isCode_front htail)
  | cons s row ih =>
    have hlead := isCode_lastLine (s.isCode_front hrow.isCode_front)
    rw [rowLine, List.find?_cons]
    cases hs : p s with
    | true =>
      obtain ⟨hends, hrest⟩ := (hp hrow).mpr hs
      exact hr.search_of_endsIn hlead hends hrest
    | false =>
      have hnot :
          ¬(EndsIn Lead (lastLine (front ++ s.lead)) ∧ Rest (rowLine s.trail row tail)) := by
        rw [hp hrow, hs]
        decide
      have hquoted :
          isCode (rowLine s.trail row tail) = true ∨ ¬EndsIn Lead s.quoted.specifier := by
        rcases hrow.eq_nil_or_isPlain with rfl | hs
        · exact .inl (isCode_rowLine_nil s.isCode_trail htail)
        · exact .inr (hplain s hs)
      rw [hr.search_lead hlead hnot, hr.search_quoted hquoted]
      exact ih hrow.next

theorem search_fromClause_rowLine (hrow : IsRow front row) (htail : isCode tail = true) :
    search fromClause? (rowLine front row tail) =
      (row.find? fun s => s.kind == .source && !isBroken s.form.rest).map Statement.specifier := by
  have hreads : Reads fromClause? Kind.source.IsLead fun _ => True := reads_fromClause
  refine hreads.search_rowLine htail ?_ (fun s hs => Statement.not_endsIn_of_isPlain hs) hrow
  intro front s row _
  rw [and_true, Statement.endsIn_iff, Bool.and_eq_true, beq_iff_eq, Bool.not_eq_true']

theorem search_require_rowLine (hrow : IsRow front row) (htail : isCode tail = true) :
    search require? (rowLine front row tail) =
      (row.find? fun s => s.kind == .call && s.isShown).map Statement.specifier := by
  have hreads : Reads require? Kind.call.IsLead IsClosed := reads_require
  refine hreads.search_rowLine htail ?_ (fun s hs => Statement.not_endsIn_of_isPlain hs) hrow
  intro front s row hrow
  rw [Statement.endsIn_iff, Bool.and_eq_true, beq_iff_eq, and_assoc]
  refine and_congr_right fun hkind => ?_
  rw [isClosed_rowLine_iff hrow hkind, Statement.isShown, hkind, Bool.and_true, Bool.and_eq_true,
    Bool.not_eq_true', Bool.not_eq_true']

theorem search_importFrom_rowLine (hrow : IsRow front row) (htail : isCode tail = true) :
    search importFrom? (rowLine front row tail) =
      (row.find? fun s => s.kind == .source && s.isShown).map Statement.specifier := by
  induction row generalizing front with
  | nil =>
    exact search_importFrom_of_none (reads_fromClause.search_of_isCode
      (isCode_rowLine_nil hrow.isCode_front htail))
  | cons s row ih =>
    have hlead := isCode_lastLine (s.isCode_front hrow.isCode_front)
    cases hopens : opens (lastLine (front ++ s.lead)) with
    | true =>
      -- from here on every source module counts, and on this line each of them is shown
      have hfrom := search_fromClause_rowLine hrow htail
      rw [rowLine] at hfrom ⊢
      rw [search_importFrom_of_opens hlead hopens, hfrom]
      refine congrArg (Option.map _) (List.find?_congr ?_)
      intro t ht
      by_cases hkind : t.kind = .source
      · have hseen : opens (lastLine t.form.lead) = true := by
          rcases List.mem_cons.mp ht with rfl | ht
          · rw [← t.opens_lastLine hkind front, hopens]
          · have hlead := hrow.not_isBroken_lead t ht
            rw [Statement.lead, isBroken_append, Bool.or_eq_false_iff] at hlead
            rw [lastLine_of_not_isBroken hlead.2]
            exact t.opens_lead hkind []
        rw [t.isShown_source hkind, hseen, Bool.and_true]
      · rw [beq_eq_false_iff_ne.mpr hkind, Bool.false_and, Bool.false_and]
    | false =>
      have hs : (s.kind == .source && s.isShown) = false := by
        by_cases hkind : s.kind = .source
        · rw [s.isShown_source hkind, ← s.opens_lastLine hkind front, hopens,
            Bool.and_false, Bool.and_false]
        · rw [beq_eq_false_iff_ne.mpr hkind, Bool.false_and]
      rw [rowLine, search_importFrom_lead hopens, List.find?_cons, hs]
      rcases hrow.eq_nil_or_isPlain with rfl | hplain
      · have hcode := isCode_rowLine_nil s.isCode_trail htail
        apply search_importFrom_of_none
        rw [reads_fromClause.search_quoted (.inl hcode), reads_fromClause.search_of_isCode hcode]
      · have hblank : s.quoted.specifier.any isBlank = false := by
          rw [List.any_eq_false]
          intro c hc hblank
          have hplain := List.all_eq_true.mp hplain c hc
          rw [hblank] at hplain
          cases hplain
        rw [search_importFrom_quoted hblank]
        exact ih hrow.next

theorem sideEffect_rowLine (hrow : IsRow front (s :: row))
    (hfirst : front = [] ∨ s.before.any isSeparator = true)
    (hlater : ∀ t ∈ row, t.before.any isSeparator = true) :
    sideEffect? (rowLine front (s :: row) tail) =
      ((s :: row).find? fun s => s.kind == .effect && s.isShown).map Statement.specifier := by
  -- behind the first specifier nothing stands at the beginning of the line
  have hnone : (row.find? fun s => s.kind == .effect && s.isShown) = none := by
    rw [List.find?_eq_none]
    intro t ht hshown
    rw [Bool.and_eq_true, beq_iff_eq] at hshown
    obtain ⟨hkind, hshown⟩ := hshown
    have hlead := hrow.not_isBroken_lead t ht
    rw [Statement.lead, isBroken_append, Bool.or_eq_false_iff] at hlead
    rw [Statement.isShown, hkind, lastLine_of_not_isBroken hlead.1,
      Statement.not_all_isBlank_before (hlater t ht) hlead.1, Bool.and_false] at hshown
    cases hshown
  have hlead := isCode_lastLine (s.isCode_front hrow.isCode_front)
  rw [rowLine, List.find?_cons]
  cases hs : (s.kind == .effect && s.isShown) with
  | true =>
    rw [Bool.and_eq_true, beq_iff_eq] at hs
    have heffect := (Statement.isEffect_iff hfirst).mpr hs
    exact reads_sideEffect.eq_some_iff.mpr ⟨_, s.quoted, _, heffect, trivial, rfl, rfl⟩
  | false =>
    rw [hnone, Option.map_none, Option.eq_none_iff_forall_ne_some]
    intro specifier hsome
    have heffect := (Statement.isEffect_iff hfirst).mp (reads_sideEffect.of_eq_some hlead hsome).1
    rw [beq_iff_eq.mpr heffect.1, heffect.2] at hs
    cases hs

/-- On a line the statements that are shown are found, one of each kind. -/
theorem lineSpecifiers_rowLine (hrow : IsRow front (s :: row)) (htail : isCode tail = true)
    (hfirst : front = [] ∨ s.before.any isSeparator = true)
    (hlater : ∀ t ∈ row, t.before.any isSeparator = true) :
    lineSpecifiers (rowLine front (s :: row) tail) =
    (found (s :: row)).map Statement.specifier := by
  rw [lineSpecifiers, search_importFrom_rowLine hrow htail, sideEffect_rowLine hrow hfirst hlater,
    search_require_rowLine hrow htail, found, List.map_filterMap]
  rfl

end Row

end CodeAtlas.Imports.Script
