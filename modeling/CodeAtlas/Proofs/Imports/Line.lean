import CodeAtlas.Imports.Script
import CodeAtlas.Proofs.Text.Find

/-! # Specifiers on one line

A line is code with specifiers quoted in it. Each recogniser reads a lead, a quoted specifier and
what follows it, and a lead is code. Hence a search goes from one specifier to the next: it stops at
the first one with a lead of the right kind in front of it, provided that no specifier itself ends
like such a lead.
-/
namespace CodeAtlas.Imports.Script
open Text

/-! ## Code and quoted specifiers -/

/-- Text without quotation marks. -/
def isCode (text : List Char) : Bool := text.all (!isMark ·)

@[simp] theorem isCode_nil : isCode [] = true := rfl

@[simp] theorem isCode_cons (c : Char) (text : List Char) :
    isCode (c :: text) = (!isMark c && isCode text) := rfl

@[simp] theorem isCode_append (text text' : List Char) :
    isCode (text ++ text') = (isCode text && isCode text') :=
  List.all_append

theorem isMark_of_isBlank {c : Char} (h : isBlank c = true) : isMark c = false := by
  by_contra hmark
  simp only [isMark, Bool.not_eq_false, Bool.or_eq_true, beq_iff_eq] at hmark
  rcases hmark with rfl | rfl <;> exact absurd h (by decide)

theorem isCode_of_isBlank {room : List Char} (h : ∀ c ∈ room, isBlank c = true) :
    isCode room = true := by
  rw [isCode, List.all_eq_true]
  exact fun c hc => by simp [isMark_of_isBlank (h c hc)]

/-- A specifier between two quotation marks. -/
@[ext] structure Quoted where
  opening : Char
  specifier : List Char
  closing : Char
  isMark_opening : isMark opening = true
  isMark_closing : isMark closing = true
  ne_nil : specifier ≠ []
  isCode_specifier : isCode specifier = true

/-- The specifier with its marks. -/
def Quoted.text (q : Quoted) : List Char := q.opening :: (q.specifier ++ [q.closing])

theorem Quoted.text_append (q : Quoted) (rest : List Char) :
    q.text ++ rest = q.opening :: (q.specifier ++ q.closing :: rest) := by simp [Quoted.text]

/-- From each of its places a quoted specifier goes on to the closing mark. -/
theorem Quoted.exists_tail {q : Quoted} {before behind : List Char} (h : q.text = before ++ behind)
    (hne : behind ≠ []) :
    ∃ tail, behind = tail ++ [q.closing] ∧ q.opening :: q.specifier = before ++ tail := by
  rcases List.eq_nil_or_concat behind with rfl | ⟨tail, closing, rfl⟩
  · exact absurd rfl hne
  · rw [List.concat_eq_append, ← List.append_assoc, Quoted.text, ← List.cons_append] at h
    obtain ⟨htail, hclosing⟩ := List.append_inj' h rfl
    exact ⟨tail, by rw [List.concat_eq_append, hclosing], htail⟩

/-- Code at the front of a text does not reach over a mark. -/
theorem exists_of_append_mark {front front' rest rest' : List Char} {m : Char}
    (hfront' : isCode front' = true) (hm : isMark m = true)
    (h : front ++ m :: rest = front' ++ rest') :
    ∃ between, front = front' ++ between ∧ rest' = between ++ m :: rest := by
  rcases List.append_eq_append_iff.mp h with ⟨between, hcut, hrest⟩ | ⟨between, hcut, hrest⟩
  · cases between with
    | nil => exact ⟨[], by simpa using hcut.symm, by simpa using hrest.symm⟩
    | cons c between =>
      obtain ⟨rfl, -⟩ := List.cons.inj hrest
      simp [hcut, hm] at hfront'
  · exact ⟨between, hcut, hrest⟩

theorem append_mark_inj {front front' rest rest' : List Char} {m m' : Char}
    (hfront : isCode front = true) (hfront' : isCode front' = true) (hm : isMark m = true)
    (hm' : isMark m' = true) (h : front ++ m :: rest = front' ++ m' :: rest') :
    front = front' ∧ m = m' ∧ rest = rest' := by
  obtain ⟨between, rfl, hrest⟩ := exists_of_append_mark hfront' hm h
  cases between with
  | nil =>
    obtain ⟨rfl, rfl⟩ := List.cons.inj hrest
    exact ⟨List.append_nil _, rfl, rfl⟩
  | cons c between =>
    obtain ⟨rfl, -⟩ := List.cons.inj hrest
    simp [hm'] at hfront

/-- A text is cut around its first specifier in one way. -/
theorem Quoted.append_inj {lead lead' rest rest' : List Char} {q q' : Quoted}
    (hlead : isCode lead = true) (hlead' : isCode lead' = true)
    (h : lead ++ (q.text ++ rest) = lead' ++ (q'.text ++ rest')) :
    lead = lead' ∧ q = q' ∧ rest = rest' := by
  rw [q.text_append, q'.text_append] at h
  obtain ⟨rfl, hopening, hbehind⟩ :=
    append_mark_inj hlead hlead' q.isMark_opening q'.isMark_opening h
  obtain ⟨hspecifier, hclosing, rfl⟩ :=
    append_mark_inj q.isCode_specifier q'.isCode_specifier q.isMark_closing
      q'.isMark_closing hbehind
  exact ⟨rfl, Quoted.ext hopening hspecifier hclosing, rfl⟩

theorem quoted?_eq_some_iff {text specifier rest : List Char} :
    quoted? text = some (specifier, rest) ↔ ∃ q : Quoted, q.specifier = specifier ∧
      text = q.text ++ rest := by
  constructor
  · intro h
    cases text with
    | nil => cases h
    | cons m text =>
      simp only [quoted?, List.span_eq_takeWhile_dropWhile] at h
      split at h
      case isFalse => cases h
      case isTrue hm =>
        have hcut := List.takeWhile_append_dropWhile (p := (!isMark ·)) (l := text)
        have hhead := List.head?_dropWhile_not (!isMark ·) text
        have hcode : isCode (text.takeWhile (!isMark ·)) = true := List.all_takeWhile
        split at h
        case h_1 => cases h
        case h_2 => cases h
        case h_3 found m' behind hne heq =>
          obtain ⟨rfl, rfl⟩ := Prod.mk.inj (Option.some.inj h)
          obtain ⟨rfl, hrest⟩ := Prod.mk.inj heq
          rw [hrest] at hhead hcut
          refine ⟨⟨m, _, m', hm, by simpa using hhead, hne, hcode⟩, rfl, ?_⟩
          rw [Quoted.text_append, hcut]
  · rintro ⟨q, rfl, rfl⟩
    have hall : ∀ c ∈ q.specifier, (!isMark c) = true := List.all_eq_true.mp q.isCode_specifier
    have htake : (q.specifier ++ q.closing :: rest).takeWhile (!isMark ·) = q.specifier := by
      simp [List.takeWhile_append_of_pos hall, q.isMark_closing]
    have hdrop : (q.specifier ++ q.closing :: rest).dropWhile (!isMark ·) = q.closing :: rest := by
      simp [List.dropWhile_append_of_pos hall, q.isMark_closing]
    simp only [q.text_append, quoted?, q.isMark_opening, if_true,
      List.span_eq_takeWhile_dropWhile, htake, hdrop]
    split
    case h_1 heq => exact absurd (Prod.mk.inj heq).1 q.ne_nil
    case h_2 heq => cases (Prod.mk.inj heq).2
    case h_3 heq =>
      obtain ⟨rfl, hrest⟩ := Prod.mk.inj heq
      rw [(List.cons.inj hrest).2]

/-! ## Recognisers of specifiers -/

/-- The recogniser answers the specifiers that stand between a lead and a rest of the
given kinds. -/
structure Reads (recognise : List Char → Option (List Char)) (Lead Rest : List Char → Prop) :
    Prop where
  eq_some_iff {text specifier : List Char} : recognise text = some specifier ↔
    ∃ lead, ∃ q : Quoted, ∃ rest, Lead lead ∧ Rest rest ∧ q.specifier = specifier ∧
      text = lead ++ (q.text ++ rest)
  isCode_lead {lead : List Char} : Lead lead → isCode lead = true
  lead_ne_nil {lead : List Char} : Lead lead → lead ≠ []

/-- The text ends with a lead of the given kind. -/
def EndsIn (Lead : List Char → Prop) (text : List Char) : Prop :=
  ∃ front lead, Lead lead ∧ text = front ++ lead

section Search
variable {recognise : List Char → Option (List Char)} {Lead Rest : List Char → Prop}
  (hr : Reads recognise Lead Rest)
include hr

theorem Reads.eq_none_of_isCode {text : List Char} (h : isCode text = true) :
    recognise text = none := by
  rw [Option.eq_none_iff_forall_ne_some]
  intro specifier hsome
  obtain ⟨lead, q, rest, -, -, -, rfl⟩ := hr.eq_some_iff.mp hsome
  simp [q.text_append, q.isMark_opening] at h

theorem Reads.of_eq_some {lead rest specifier : List Char} {q : Quoted} (hlead : isCode lead = true)
    (h : recognise (lead ++ (q.text ++ rest)) = some specifier) :
    Lead lead ∧ Rest rest ∧ specifier = q.specifier := by
  obtain ⟨lead', q', rest', hlead', hrest', rfl, hcut⟩ := hr.eq_some_iff.mp h
  obtain ⟨rfl, rfl, rfl⟩ := Quoted.append_inj hlead (hr.isCode_lead hlead') hcut
  exact ⟨hlead', hrest', rfl⟩

theorem Reads.search_of_isCode {text : List Char} (h : isCode text = true) :
    search recognise text = none := by
  rw [search_eq_none_iff]
  rintro before rest rfl
  rw [isCode_append, Bool.and_eq_true] at h
  exact hr.eq_none_of_isCode h.2

/-- A lead in front of the first specifier is found. -/
theorem Reads.search_of_endsIn {lead rest : List Char} {q : Quoted} (hlead : isCode lead = true)
    (hends : EndsIn Lead lead) (hrest : Rest rest) :
    search recognise (lead ++ (q.text ++ rest)) = some q.specifier := by
  obtain ⟨front, last, hlast, rfl⟩ := hends
  have hhere : recognise (last ++ (q.text ++ rest)) = some q.specifier :=
    hr.eq_some_iff.mpr ⟨last, q, rest, hlast, hrest, rfl, rfl⟩
  induction front with
  | nil =>
    obtain ⟨c, last, rfl⟩ := List.exists_cons_of_ne_nil (hr.lead_ne_nil hlast)
    rw [List.nil_append, List.cons_append, search_cons, ← List.cons_append, hhere, Option.some_or]
  | cons c front ih =>
    -- whatever is read at an earlier place is the same specifier
    have hlater := ih (Bool.and_eq_true_iff.mp hlead).2
    rw [List.cons_append, List.cons_append, search_cons, hlater]
    cases hfound : recognise (c :: (front ++ last ++ (q.text ++ rest))) with
    | none => rfl
    | some specifier =>
      rw [← List.cons_append] at hfound
      rw [Option.some_or, (hr.of_eq_some hlead hfound).2.2]

/-- Code in front of a specifier that is no lead is passed over. -/
theorem Reads.search_lead {lead rest : List Char} {q : Quoted} (hlead : isCode lead = true)
    (hnot : ¬(EndsIn Lead lead ∧ Rest rest)) :
    search recognise (lead ++ (q.text ++ rest)) = search recognise (q.text ++ rest) := by
  apply search_append
  rintro before behind rfl -
  rw [isCode_append, Bool.and_eq_true] at hlead
  rw [Option.eq_none_iff_forall_ne_some]
  intro specifier hsome
  obtain ⟨hbehind, hrest, -⟩ := hr.of_eq_some hlead.2 hsome
  exact hnot ⟨⟨before, behind, hbehind, rfl⟩, hrest⟩

/-- So is a specifier, unless it ends like a lead in front of another mark. -/
theorem Reads.search_quoted {rest : List Char} {q : Quoted}
    (h : isCode rest = true ∨ ¬EndsIn Lead q.specifier) :
    search recognise (q.text ++ rest) = search recognise rest := by
  apply search_append
  intro before behind hcut hne
  rw [Option.eq_none_iff_forall_ne_some]
  intro specifier hsome
  obtain ⟨lead, q', rest', hlead, -, -, heq⟩ := hr.eq_some_iff.mp hsome
  have hcode := hr.isCode_lead hlead
  obtain ⟨tail, rfl, htail⟩ := Quoted.exists_tail hcut hne
  rw [List.append_assoc, List.singleton_append, q'.text_append] at heq
  cases before with
  | nil =>
    -- no lead begins with a mark
    rw [List.nil_append] at htail
    rw [← htail, List.cons_append] at heq
    obtain ⟨hnil, -⟩ := append_mark_inj isCode_nil hcode q.isMark_opening q'.isMark_opening heq
    exact hr.lead_ne_nil hlead hnil.symm
  | cons m before =>
    have hspecifier := (List.cons.inj htail).2
    have htail := q.isCode_specifier
    rw [hspecifier, List.append_eq, isCode_append, Bool.and_eq_true] at htail
    obtain ⟨rfl, -, rfl⟩ := append_mark_inj htail.2 hcode q.isMark_closing q'.isMark_opening heq
    rcases h with hrest | hends
    · simp [q'.isMark_closing] at hrest
    · exact hends ⟨before, tail, hlead, hspecifier⟩

end Search

/-! ## The kinds of leads -/

/-- The word in front of the specifier of an import or export. -/
def IsSource (lead : List Char) : Prop := ∃ gap, IsGap gap ∧ lead = "from".toList ++ gap

/-- The beginning of a line that imports for effect. -/
def IsEffect (lead : List Char) : Prop :=
  ∃ room gap, room.all isBlank = true ∧ IsGap gap ∧ lead = room ++ ("import".toList ++ gap)

/-- The beginning of a call. -/
def IsCall (lead : List Char) : Prop :=
  ∃ room room', room.all isBlank = true ∧ room'.all isBlank = true ∧
    lead = "require".toList ++ (room ++ '(' :: room')

/-- The end of a call. -/
def IsClosed (rest : List Char) : Prop :=
  ∃ room rest', room.all isBlank = true ∧ rest = room ++ ')' :: rest'

theorem isBlank_of_isMark {c : Char} (h : isMark c = true) : isBlank c = false := by
  by_contra hblank
  rw [isMark_of_isBlank (Bool.not_eq_false _ ▸ hblank)] at h
  cases h

theorem exists_trimStart (text : List Char) :
    ∃ room, room.all isBlank = true ∧ text = room ++ trimStart text :=
  ⟨text.takeWhile isBlank, List.all_takeWhile, List.takeWhile_append_dropWhile.symm⟩

theorem trimStart_room {room : List Char} (h : room.all isBlank = true) {c : Char}
    (hc : isBlank c = false) (rest : List Char) : trimStart (room ++ c :: rest) = c :: rest := by
  rw [trimStart, List.dropWhile_append_of_pos (List.all_eq_true.mp h), List.dropWhile_cons, hc,
    if_neg Bool.false_ne_true]

theorem blanks_text {gap : List Char} (h : IsGap gap) (q : Quoted) (rest : List Char) :
    blanks (gap ++ (q.text ++ rest)) = some (q.text ++ rest) := by
  rw [q.text_append]
  exact blanks_append h (isBlank_of_isMark q.isMark_opening)

theorem isCode_room {room : List Char} (h : room.all isBlank = true) : isCode room = true :=
  isCode_of_isBlank (List.all_eq_true.mp h)

theorem reads_fromClause : Reads fromClause? IsSource fun _ => True where
  eq_some_iff {text specifier} := by
    simp only [fromClause?, literal, Option.bind_eq_bind, Option.bind_eq_some_iff,
      after?_eq_some_iff, Option.pure_def, Option.some.injEq, Prod.exists, quoted?_eq_some_iff]
    constructor
    · rintro ⟨_, rfl, _, hblanks, _, _, ⟨q, rfl, rfl⟩, rfl⟩
      obtain ⟨gap, hgap, rfl⟩ := exists_isGap_of_blanks hblanks
      exact ⟨_, q, _, ⟨gap, hgap, rfl⟩, trivial, rfl, by rw [List.append_assoc]⟩
    · rintro ⟨_, q, rest, ⟨gap, hgap, rfl⟩, -, rfl, rfl⟩
      exact ⟨_, by rw [List.append_assoc], _, blanks_text hgap q rest, _, _, ⟨q, rfl, rfl⟩, rfl⟩
  isCode_lead := by
    rintro _ ⟨gap, hgap, rfl⟩
    rw [isCode_append, isCode_of_isBlank hgap.2, Bool.and_true]
    rfl
  lead_ne_nil := by
    rintro _ ⟨gap, hgap, rfl⟩ h
    exact hgap.1 (List.append_eq_nil_iff.mp h).2

theorem reads_sideEffect : Reads sideEffect? IsEffect fun _ => True where
  eq_some_iff {text specifier} := by
    simp only [sideEffect?, literal, Option.bind_eq_bind, Option.bind_eq_some_iff,
      after?_eq_some_iff, Option.pure_def, Option.some.injEq, Prod.exists, quoted?_eq_some_iff]
    constructor
    · rintro ⟨_, htrim, _, hblanks, _, rest, ⟨q, rfl, rfl⟩, rfl⟩
      obtain ⟨gap, hgap, rfl⟩ := exists_isGap_of_blanks hblanks
      obtain ⟨room, hroom, htext⟩ := exists_trimStart text
      refine ⟨_, q, rest, ⟨room, gap, hroom, hgap, rfl⟩, trivial, rfl, ?_⟩
      rw [htext, htrim]
      simp only [List.append_assoc]
    · rintro ⟨_, q, rest, ⟨room, gap, hroom, hgap, rfl⟩, -, rfl, rfl⟩
      refine ⟨_, ?_, _, blanks_text hgap q rest, _, _, ⟨q, rfl, rfl⟩, rfl⟩
      rw [List.append_assoc, List.append_assoc]
      exact trimStart_room hroom (by decide) _
  isCode_lead := by
    rintro _ ⟨room, gap, hroom, hgap, rfl⟩
    rw [isCode_append, isCode_append, isCode_room hroom, isCode_of_isBlank hgap.2]
    rfl
  lead_ne_nil := by
    rintro _ ⟨room, gap, -, hgap, rfl⟩ h
    exact hgap.1 (List.append_eq_nil_iff.mp (List.append_eq_nil_iff.mp h).2).2

theorem reads_require : Reads require? IsCall IsClosed where
  eq_some_iff {text specifier} := by
    simp only [require?, literal, Option.bind_eq_bind, Option.bind_eq_some_iff, after?_eq_some_iff,
      Option.pure_def, Option.some.injEq, Prod.exists, quoted?_eq_some_iff]
    constructor
    · rintro ⟨inner, rfl, behind, hopened, _, rest, ⟨q, rfl, hquoted⟩, closed, hclosed, rfl⟩
      obtain ⟨room, hroom, hinner⟩ := exists_trimStart inner
      obtain ⟨room', hroom', hbehind⟩ := exists_trimStart behind
      obtain ⟨room'', hroom'', hrest⟩ := exists_trimStart rest
      refine ⟨_, q, rest, ⟨room, room', hroom, hroom', rfl⟩, ⟨room'', closed, hroom'', ?_⟩, rfl, ?_⟩
      · rw [hrest, hclosed]
        rfl
      · rw [hinner, hopened, hbehind, hquoted]
        simp
    · rintro ⟨_, q, _, ⟨room, room', hroom, hroom', rfl⟩, ⟨room'', rest, hroom'', rfl⟩, rfl, rfl⟩
      refine ⟨_, by rw [List.append_assoc], room' ++ (q.text ++ (room'' ++ ')' :: rest)), ?_, _,
        room'' ++ ')' :: rest, ⟨q, rfl, ?_⟩, rest, ?_, rfl⟩
      · rw [List.append_assoc]
        exact trimStart_room hroom (by decide) _
      · rw [q.text_append]
        exact trimStart_room hroom' (isBlank_of_isMark q.isMark_opening) _
      · exact trimStart_room hroom'' (by decide) _
  isCode_lead := by
    rintro _ ⟨room, room', hroom, hroom', rfl⟩
    rw [isCode_append, isCode_append, isCode_cons, isCode_room hroom, isCode_room hroom']
    rfl
  lead_ne_nil := by
    rintro _ ⟨room, room', -, -, rfl⟩ h
    exact List.cons_ne_nil _ _ (List.append_eq_nil_iff.mp (List.append_eq_nil_iff.mp h).2).2

/-! ## Imports and exports -/

/-- The words that begin a statement with a source module. -/
inductive Keyword where
  | importing
  | exporting

def Keyword.text : Keyword → List Char
  | .importing => "import".toList
  | .exporting => "export".toList

/-- Whether a keyword stands at this place, with a blank behind it. -/
def opensHere (text : List Char) : Bool :=
  [Keyword.importing, Keyword.exporting].any fun keyword =>
    ((after? keyword.text text).bind blanks).isSome

/-- Whether a keyword stands somewhere in the text, with a blank behind it. -/
def opens (text : List Char) : Bool := (places text).any opensHere

theorem opensHere_iff {text : List Char} : opensHere text = true ↔
    ∃ keyword : Keyword, ∃ c rest, isBlank c = true ∧ text = keyword.text ++ c :: rest := by
  have hmem (keyword : Keyword) : keyword ∈ [Keyword.importing, Keyword.exporting] := by
    cases keyword <;> simp
  simp only [opensHere, List.any_eq_true, Option.isSome_iff_exists, Option.bind_eq_some_iff,
    after?_eq_some_iff]
  constructor
  · rintro ⟨keyword, -, rest', _, rfl, hblanks⟩
    obtain ⟨gap, hgap, rfl⟩ := exists_isGap_of_blanks hblanks
    obtain ⟨c, gap, rfl⟩ := List.exists_cons_of_ne_nil hgap.1
    exact ⟨keyword, c, gap ++ rest', hgap.2 c List.mem_cons_self, rfl⟩
  · rintro ⟨keyword, c, rest, hc, rfl⟩
    exact ⟨keyword, hmem keyword, trimStart rest, c :: rest, rfl, by rw [blanks, if_pos hc]⟩

theorem opens_iff {text : List Char} :
    opens text = true ↔ ∃ front, ∃ keyword : Keyword, ∃ c rest, isBlank c = true ∧
    text = front ++ (keyword.text ++ c :: rest) := by
  simp only [opens, List.any_eq_true, mem_places_iff, opensHere_iff]
  constructor
  · rintro ⟨_, ⟨front, rfl⟩, keyword, c, rest, hc, rfl⟩
    exact ⟨front, keyword, c, rest, hc, rfl⟩
  · rintro ⟨front, keyword, c, rest, hc, rfl⟩
    exact ⟨_, ⟨front, rfl⟩, keyword, c, rest, hc, rfl⟩

/-- A mark ends what can be seen of a keyword. -/
theorem opensHere_of_append_mark {front rest : List Char} {m : Char} (hm : isMark m = true)
    (h : opensHere (front ++ m :: rest) = true) : opensHere front = true := by
  obtain ⟨keyword, c, rest', hc, hcut⟩ := opensHere_iff.mp h
  have hcode : isCode (keyword.text ++ [c]) = true := by
    rw [isCode_append, isCode_cons, isMark_of_isBlank hc]
    cases keyword <;> rfl
  obtain ⟨between, rfl, -⟩ := exists_of_append_mark hcode hm (hcut.trans (List.append_cons _ _ _))
  exact opensHere_iff.mpr ⟨keyword, c, between, hc, (List.append_cons _ _ _).symm⟩

theorem search_fromClause_append {front : List Char} (h : 'f' ∉ front) (rest : List Char) :
    search fromClause? (front ++ rest) = search fromClause? rest := by
  apply search_append
  rintro before behind rfl hne
  obtain ⟨c, behind, rfl⟩ := List.exists_cons_of_ne_nil hne
  have hc : 'f' ≠ c := by
    rintro rfl
    exact h (List.mem_append_right _ List.mem_cons_self)
  have hliteral : literal "from" (c :: (behind ++ rest)) = none := by simp [literal, after?, hc]
  simp [fromClause?, hliteral]

/-- Behind the keyword the search for a source module goes on to the end of the line. -/
theorem importFrom?_eq (text : List Char) :
    importFrom? text = if opensHere text then search fromClause? text else none := by
  split
  case isTrue h =>
    obtain ⟨keyword, c, rest, hc, rfl⟩ := opensHere_iff.mp h
    have hword :
        (literal "import" (keyword.text ++ c :: rest)).or
        (literal "export" (keyword.text ++ c :: rest)) = some (c :: rest) := by
      cases keyword with
      | importing =>
        have himport : literal "import" (Keyword.importing.text ++ c :: rest) = some (c :: rest) :=
          after?_eq_some_iff.mpr rfl
        rw [himport, Option.some_or]
      | exporting => exact after?_eq_some_iff.mpr rfl
    have hskip : 'f' ∉ keyword.text ++ c :: rest.takeWhile isBlank := by
      have hblank : 'f' ∉ c :: rest.takeWhile isBlank := by
        intro hmem
        rcases List.mem_cons.mp hmem with rfl | hmem
        · exact absurd hc (by decide)
        · exact absurd (List.mem_takeWhile_imp hmem) (by decide)
      rw [List.mem_append, not_or]
      exact ⟨by cases keyword <;> decide, hblank⟩
    have hgap : keyword.text ++ c :: rest = (keyword.text ++ c :: rest.takeWhile isBlank) ++
        trimStart rest := by
      rw [List.append_assoc, List.cons_append, trimStart, List.takeWhile_append_dropWhile]
    have hblanks : blanks (c :: rest) = some (trimStart rest) := by rw [blanks, if_pos hc]
    conv_rhs => rw [hgap, search_fromClause_append hskip]
    rw [importFrom?, hword, Option.bind_eq_bind, Option.bind_some, hblanks, Option.bind_some]
  case isFalse h =>
    rw [Option.eq_none_iff_forall_ne_some]
    intro specifier hsome
    obtain ⟨behind, hword, hsearch⟩ := Option.bind_eq_some_iff.mp hsome
    obtain ⟨_, hblanks, -⟩ := Option.bind_eq_some_iff.mp hsearch
    obtain ⟨gap, hgap, rfl⟩ := exists_isGap_of_blanks hblanks
    obtain ⟨c, gap, rfl⟩ := List.exists_cons_of_ne_nil hgap.1
    have hc := hgap.2 c List.mem_cons_self
    rcases Option.or_eq_some_iff.mp hword with hword | ⟨-, hword⟩
    · exact h (opensHere_iff.mpr ⟨.importing, c, _, hc, after?_eq_some_iff.mp hword⟩)
    · exact h (opensHere_iff.mpr ⟨.exporting, c, _, hc, after?_eq_some_iff.mp hword⟩)

theorem search_importFrom_of_none {text : List Char} (h : search fromClause? text = none) :
    search importFrom? text = none := by
  rw [search_eq_none_iff] at h ⊢
  rintro before rest rfl
  have hrest : search fromClause? rest = none := by
    rw [search_eq_none_iff]
    rintro before' rest' rfl
    exact h (before ++ before') rest' (List.append_assoc _ _ _).symm
  rw [importFrom?_eq, hrest, ite_self]

theorem opensHere_append {text : List Char} (h : opensHere text = true) (rest : List Char) :
    opensHere (text ++ rest) = true := by
  obtain ⟨keyword, c, behind, hc, rfl⟩ := opensHere_iff.mp h
  exact opensHere_iff.mpr ⟨keyword, c, behind ++ rest, hc, by simp⟩

theorem mem_of_opens {text : List Char} (h : opens text = true) : 'p' ∈ text := by
  obtain ⟨front, keyword, c, rest, -, rfl⟩ := opens_iff.mp h
  have hp : 'p' ∈ keyword.text := by cases keyword <;> decide
  exact List.mem_append_right _ (List.mem_append_left _ hp)

/-- Once a keyword has been passed any source module on the line will do. -/
theorem search_importFrom_of_opens {lead : List Char} (hlead : isCode lead = true)
    (hopens : opens lead = true) (rest : List Char) :
    search importFrom? (lead ++ rest) = search fromClause? (lead ++ rest) := by
  induction lead with
  | nil => cases hopens
  | cons c lead ih =>
    have hhere : fromClause? (c :: (lead ++ rest)) = none := by
      rw [Option.eq_none_iff_forall_ne_some]
      intro specifier hsome
      -- the clause would reach from here over the keyword to a mark
      obtain ⟨source, q, rest', ⟨gap, hgap, rfl⟩, -, -, hcut⟩ :=
        reads_fromClause.eq_some_iff.mp hsome
      rw [q.text_append] at hcut
      obtain ⟨between, hsource, -⟩ := exists_of_append_mark hlead q.isMark_opening hcut.symm
      have hp : 'p' ∈ "from".toList ++ gap := hsource ▸ List.mem_append_left _ (mem_of_opens hopens)
      rcases List.mem_append.mp hp with hp | hp
      · exact absurd hp (by decide)
      · exact absurd (hgap.2 _ hp) (by decide)
    rw [List.cons_append, search_cons, search_cons, hhere, Option.none_or, importFrom?_eq]
    split
    case isTrue =>
      cases hfound : search fromClause? (lead ++ rest) with
      | none =>
        rw [search_cons, hhere, hfound, search_importFrom_of_none hfound]
        rfl
      | some specifier =>
        rw [search_cons, hhere, hfound]
        rfl
    case isFalse h =>
      have hlater : opens lead = true := by
        rcases Bool.or_eq_true_iff.mp hopens with hopens | hopens
        · exact absurd (opensHere_append hopens rest) h
        · exact hopens
      rw [Option.none_or]
      exact ih (Bool.and_eq_true_iff.mp hlead).2 hlater

/-- Code without a keyword in front of a specifier is passed over. -/
theorem search_importFrom_lead {lead rest : List Char} {q : Quoted} (hnot : opens lead = false) :
    search importFrom? (lead ++ (q.text ++ rest)) = search importFrom? (q.text ++ rest) := by
  apply search_append
  rintro before behind rfl -
  rw [importFrom?_eq, if_neg]
  intro hhere
  rw [q.text_append] at hhere
  have hbehind := opensHere_of_append_mark q.isMark_opening hhere
  have hopens : opens (before ++ behind) = true :=
    List.any_eq_true.mpr ⟨behind, mem_places_iff.mpr ⟨before, rfl⟩, hbehind⟩
  rw [hnot] at hopens
  cases hopens

/-- So is a specifier without blanks. -/
theorem search_importFrom_quoted {rest : List Char} {q : Quoted}
    (h : q.specifier.any isBlank = false) :
    search importFrom? (q.text ++ rest) = search importFrom? rest := by
  apply search_append
  intro before behind hcut hne
  rw [importFrom?_eq, if_neg]
  intro hhere
  obtain ⟨tail, rfl, htail⟩ := Quoted.exists_tail hcut hne
  rw [List.append_assoc, List.singleton_append] at hhere
  obtain ⟨keyword, c, rest', hc, rfl⟩ :=
    opensHere_iff.mp (opensHere_of_append_mark q.isMark_closing hhere)
  have hmem : c ∈ q.opening :: q.specifier := by simp [htail]
  rcases List.mem_cons.mp hmem with rfl | hmem
  · rw [isBlank_of_isMark q.isMark_opening] at hc
    cases hc
  · exact absurd hc (List.any_eq_false.mp h c hmem)

end CodeAtlas.Imports.Script
