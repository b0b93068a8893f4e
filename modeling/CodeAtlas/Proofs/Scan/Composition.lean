import CodeAtlas.Proofs.Scan.Visit

/-! # Ignore files in combination

A file is dropped if one of the ignore files above it says so, whichever others there are. Nothing
but three faults keeps enumeration from its end once the ignore files are read: an only ignore file
is asked about a file that is not below its directory, a rule that cannot be used comes up, or a
path is too long to be looked up.
-/
namespace CodeAtlas

namespace Scan
open Pattern

/-! ## Rules -/

namespace IgnoreFile

/-- What rules say of a path: it is ignored if the last rule about it is not negated. -/
def rulesIgnore (rules : List IgnoreRule) (path : List Char) : Bool :=
  (rules.reverse.find? fun rule => rule.matches? path == some true).any (!·.negated)

def askedRules (rules : List IgnoreRule) : List IgnoreRule :=
  if rules.any (·.negated) then rules.reverse else rules

/-- The first rule that does not deny to be about a path: it is about the path, or it
cannot be used. -/
def answering? (rules : List IgnoreRule) (path : List Char) : Option IgnoreRule :=
  rules.find? fun rule => rule.matches? path != some false

/-- Whether a rule that cannot be used comes up before one that is about the path. -/
def rulesBreak (rules : List IgnoreRule) (path : List Char) : Bool :=
  (answering? (askedRules rules) path).any (·.pieces?.isNone)

end IgnoreFile

section Rules
variable {rules : List IgnoreRule} {rule : IgnoreRule} {path : List Char}

theorem matches?_eq_none_iff (rule : IgnoreRule) (path : List Char) :
    rule.matches? path = none ↔ rule.pieces? = none := by
  cases h : rule.pieces? <;> simp [IgnoreRule.matches?, h]

open IgnoreFile

theorem firstIgnores_eq (path : List Char) (rules : List IgnoreRule) :
    firstIgnores path rules = match answering? rules path with
      | none => .ok false
      | some rule => if rule.pieces?.isNone then .error .unusableRule else .ok (!rule.negated) := by
  induction rules with
  | nil => rfl
  | cons rule rest ih =>
    rw [firstIgnores]
    cases h : rule.matches? path with
    | none =>
      have hanswer : answering? (rule :: rest) path = some rule :=
        List.find?_cons_of_pos (by rw [h]; rfl)
      simp [hanswer, (matches?_eq_none_iff rule path).mp h]
    | some about =>
      cases about with
      | true =>
        have hanswer : answering? (rule :: rest) path = some rule :=
          List.find?_cons_of_pos (by rw [h]; rfl)
        have hpieces : rule.pieces? ≠ none := by
          rw [ne_eq, ← matches?_eq_none_iff rule path, h]
          exact Option.some_ne_none true
        simp [hanswer, hpieces]
      | false =>
        have hanswer : answering? (rule :: rest) path = answering? rest path :=
          List.find?_cons_of_neg (by rw [h]; decide)
        rw [hanswer, ← ih]

/-- Without negated rules it makes no difference which rule is about the path. -/
theorem anyMatches_eq_firstIgnores (h : ∀ rule ∈ rules, rule.negated = false) :
    anyMatches path rules = firstIgnores path rules := by
  induction rules with
  | nil => rfl
  | cons rule rest ih =>
    obtain ⟨hrule, hrest⟩ := List.forall_mem_cons.mp h
    rw [anyMatches, firstIgnores, ih hrest, hrule]
    rfl

theorem decides_eq_firstIgnores (rules : List IgnoreRule) (path : List Char) :
    decides rules path = firstIgnores path (askedRules rules) := by
  unfold decides askedRules
  split
  · rfl
  next h =>
    apply anyMatches_eq_firstIgnores
    simpa using h

theorem rulesIgnore_of_not_negated (h : ∀ rule ∈ rules, rule.negated = false) :
    rulesIgnore rules path = rules.any fun rule => rule.matches? path == some true := by
  unfold rulesIgnore
  cases hfind : rules.reverse.find? fun rule => rule.matches? path == some true with
  | none =>
    have hnone : ∀ rule ∈ rules, ¬ (rule.matches? path == some true) = true := by simpa using hfind
    simpa using hnone
  | some rule =>
    have hmem : rule ∈ rules := List.mem_reverse.mp (List.mem_of_find?_eq_some hfind)
    have habout := List.find?_some hfind
    simp only [Option.any_some, h rule hmem, Bool.not_false]
    exact (List.any_eq_true.mpr ⟨rule, hmem, habout⟩).symm

theorem answering?_eq_none_iff :
    answering? rules path = none ↔ ∀ rule ∈ rules, rule.matches? path = some false := by
  simp [answering?]

/-- A rule that answers and can be used is the first one about the path. -/
theorem find?_of_answering? (h : answering? rules path = some rule)
    (husable : rule.pieces?.isNone = false) :
    rules.find? (fun rule => rule.matches? path == some true) = some rule := by
  obtain ⟨hanswer, before, after, rfl, hbefore⟩ := List.find?_eq_some_iff_append.mp h
  refine List.find?_eq_some_iff_append.mpr ⟨?_, before, after, rfl, ?_⟩
  · have hne : rule.matches? path ≠ none := by
      rw [ne_eq, matches?_eq_none_iff]
      intro hnone
      simp [hnone] at husable
    cases hrule : rule.matches? path with
    | none => exact absurd hrule hne
    | some about => simpa [hrule] using hanswer
  · intro other hother
    have hdenies : other.matches? path = some false := by simpa using hbefore other hother
    simp [hdenies]

/-- Rules that can be used say what the last one about the path says, in whichever order they
are asked. -/
theorem answer_eq_rulesIgnore (h : rulesBreak rules path = false) :
    (match answering? (askedRules rules) path with
      | none => false
      | some rule => !rule.negated) = rulesIgnore rules path := by
  unfold rulesBreak at h
  by_cases hneg : rules.any (·.negated) = true
  · have hasked : askedRules rules = rules.reverse := if_pos hneg
    rw [hasked] at h ⊢
    cases hanswer : answering? rules.reverse path with
    | none =>
      have hdeny := answering?_eq_none_iff.mp hanswer
      have hnone : rules.reverse.find? (fun rule => rule.matches? path == some true) = none := by
        rw [List.find?_eq_none]
        intro rule hrule
        simp [hdeny rule hrule]
      simp [rulesIgnore, hnone]
    | some rule =>
      have husable : rule.pieces?.isNone = false := by simpa [hanswer] using h
      simp [rulesIgnore, find?_of_answering? hanswer husable]
  · have hasked : askedRules rules = rules := if_neg hneg
    have hplain : ∀ rule ∈ rules, rule.negated = false := by simpa using hneg
    rw [hasked] at h ⊢
    rw [rulesIgnore_of_not_negated hplain]
    cases hanswer : answering? rules path with
    | none =>
      have hdeny := answering?_eq_none_iff.mp hanswer
      symm
      rw [List.any_eq_false]
      intro rule hrule
      simp [hdeny rule hrule]
    | some rule =>
      have husable : rule.pieces?.isNone = false := by simpa [hanswer] using h
      have hfind := find?_of_answering? hanswer husable
      have hmem := List.mem_of_find?_eq_some hfind
      simp only [hplain rule hmem, Bool.not_false]
      exact (List.any_eq_true.mpr ⟨rule, hmem, List.find?_some hfind⟩).symm

theorem decides_eq (rules : List IgnoreRule) (path : List Char) : decides rules path =
    if rulesBreak rules path then .error .unusableRule else .ok (rulesIgnore rules path) := by
  rw [decides_eq_firstIgnores, firstIgnores_eq]
  cases hbreak : rulesBreak rules path with
  | true =>
    unfold rulesBreak at hbreak
    cases hanswer : answering? (askedRules rules) path with
    | none => simp [hanswer] at hbreak
    | some rule => simpa [hanswer] using hbreak
  | false =>
    rw [← answer_eq_rulesIgnore hbreak]
    unfold rulesBreak at hbreak
    cases hanswer : answering? (askedRules rules) path with
    | none => rfl
    | some rule =>
      have husable : rule.pieces?.isNone = false := by simpa [hanswer] using hbreak
      simp [husable]

end Rules

/-! ## Ignore files -/

namespace IgnoreFile

/-- Whether the directory of the ignore file contains what is at the given names. -/
def Covers (f : IgnoreFile) (names : Location) : Prop := f.directory <+: names

def pathOf (f : IgnoreFile) (names : Location) : List Char :=
  (Path.ofPieces (names.drop f.directory.length)).toList

/-- Whether the file is one of those above the given names and its rules ignore what is there. -/
def Matches (f : IgnoreFile) (names : Location) : Prop :=
  f.Covers names ∧ rulesIgnore f.rules (f.pathOf names) = true

/-- Whether the file is one of those above the given names and a rule that cannot be used
comes up. -/
def Breaks (f : IgnoreFile) (names : Location) : Prop :=
  f.Covers names ∧ rulesBreak f.rules (f.pathOf names) = true

instance (f : IgnoreFile) (names : Location) : Decidable (f.Covers names) :=
  inferInstanceAs (Decidable (f.directory <+: names))

instance (f : IgnoreFile) (names : Location) : Decidable (f.Matches names) :=
  inferInstanceAs (Decidable (_ ∧ _))

instance (f : IgnoreFile) (names : Location) : Decidable (f.Breaks names) :=
  inferInstanceAs (Decidable (_ ∧ _))

end IgnoreFile

/-- Whether one of the ignore files above the given names ignores what is there. -/
def Dropped (files : List IgnoreFile) (names : Location) : Prop := ∃ f ∈ files, f.Matches names

instance (files : List IgnoreFile) (names : Location) : Decidable (Dropped files names) :=
  inferInstanceAs (Decidable (∃ f ∈ files, f.Matches names))

/-- Why ignore files have no answer for what is at the given names. -/
inductive Refused (files : List IgnoreFile) (names : Location) : Prop
  /-- The only file has rules, but it is not above the names. -/
  | outside (f : IgnoreFile) (hfiles : files = [f]) (hrules : f.rules ≠ [])
      (houtside : ¬ f.Covers names)
  /-- A rule that cannot be used comes up, and no file before it ignores what is there. -/
  | broken (front back : List IgnoreFile) (f : IgnoreFile) (hfiles : files = front ++ f :: back)
    (hbreaks : f.Breaks names) (hfront : ¬ Dropped front names)

section Files
variable {files : List IgnoreFile} {f : IgnoreFile} {names : Location}
open IgnoreFile

theorem ignores_eq (f : IgnoreFile) (names : Location) : f.ignores names =
    if f.rules ≠ [] ∧ ¬ f.Covers names then .error .outsideDirectory
    else if f.Breaks names then .error .unusableRule
    else .ok (decide (f.Matches names)) := by
  unfold IgnoreFile.ignores
  by_cases hrules : f.rules = []
  · have hbreaks : ¬ f.Breaks names := by simp [Breaks, hrules, rulesBreak, answering?, askedRules]
    have hmatches : ¬ f.Matches names := by simp [Matches, hrules, rulesIgnore]
    simp [hrules, hbreaks, hmatches]
  · have hempty : f.rules.isEmpty = false := by simpa using hrules
    rw [hempty, if_neg (by decide)]
    by_cases hcovers : f.Covers names
    · have habove : f.directory.isPrefixOf names = true := List.isPrefixOf_iff_prefix.mpr hcovers
      rw [habove, if_pos rfl, decides_eq]
      simp [Breaks, Matches, hcovers, pathOf]
    · have habove : f.directory.isPrefixOf names = false := by
        rw [← Bool.not_eq_true, List.isPrefixOf_iff_prefix]
        exact hcovers
      simp [habove, hcovers, hrules]

theorem dropped_cons : Dropped (f :: files) names ↔ f.Matches names ∨ Dropped files names := by
  simp [Dropped]

/-- With several files it is no fault that one of them cannot be asked. -/
theorem anyIgnores_cons (f : IgnoreFile) (rest : List IgnoreFile) (names : Location) :
    anyIgnores names (f :: rest) =
      if f.Breaks names then .error .unusableRule
      else if f.Matches names then .ok true
      else anyIgnores names rest := by
  rw [anyIgnores, ignores_eq]
  by_cases hcovers : f.Covers names
  · by_cases hbreaks : f.Breaks names
    · simp [hcovers, hbreaks]
    · by_cases hmatches : f.Matches names <;> simp [hcovers, hbreaks, hmatches]
  · have hbreaks : ¬ f.Breaks names := fun h => hcovers h.1
    have hmatches : ¬ f.Matches names := fun h => hcovers h.1
    by_cases hrules : f.rules = [] <;> simp [hcovers, hbreaks, hmatches, hrules]

/-- A rule that cannot be used is the only fault of several files. -/
theorem anyIgnores_eq_ok_iff {ignored : Bool} : anyIgnores names files = .ok ignored ↔
    (∀ front f back, files = front ++ f :: back → f.Breaks names → Dropped front names) ∧
      (ignored = true ↔ Dropped files names) := by
  induction files generalizing ignored with
  | nil => cases ignored <;> simp [anyIgnores, Dropped]
  | cons f rest ih =>
    rw [anyIgnores_cons, dropped_cons]
    by_cases hbreaks : f.Breaks names
    · rw [if_pos hbreaks]
      refine iff_of_false (by simp) fun h => ?_
      obtain ⟨g, hg, -⟩ := h.1 [] f rest rfl hbreaks
      cases hg
    · have hcut (front : List IgnoreFile) (g : IgnoreFile) (back : List IgnoreFile)
          (h : f :: rest = front ++ g :: back) (hg : g.Breaks names) :
          ∃ front', front = f :: front' ∧ rest = front' ++ g :: back := by
        cases front with
        | nil =>
          obtain ⟨rfl, rfl⟩ := List.cons.inj h
          exact absurd hg hbreaks
        | cons f' front' =>
          obtain ⟨rfl, rfl⟩ := List.cons.inj h
          exact ⟨front', rfl, rfl⟩
      rw [if_neg hbreaks]
      by_cases hmatches : f.Matches names
      · rw [if_pos hmatches]
        have hall : ∀ front g back, f :: rest = front ++ g :: back → g.Breaks names →
            Dropped front names := by
          intro front g back h hg
          obtain ⟨front', rfl, -⟩ := hcut front g back h hg
          exact dropped_cons.mpr (.inl hmatches)
        simp only [hmatches, true_or, iff_true, Except.ok.injEq]
        exact ⟨fun h => ⟨hall, h.symm⟩, fun h => h.2.symm⟩
      · rw [if_neg hmatches, ih]
        simp only [hmatches, false_or]
        refine and_congr_left fun _ => ⟨fun h front g back hfiles hg => ?_,
          fun h front g back hfiles hg => ?_⟩
        · obtain ⟨front', rfl, hrest⟩ := hcut front g back hfiles hg
          exact dropped_cons.mpr (.inr (h front' g back hrest hg))
        · exact (dropped_cons.mp (h (f :: front) g back (by rw [hfiles]; rfl) hg)).resolve_left
            hmatches

theorem not_refused_iff (h : ∀ f, files = [f] → f.rules = [] ∨ f.Covers names) :
    ¬ Refused files names ↔ ∀ front f back, files = front ++ f :: back → f.Breaks names →
    Dropped front names := by
  constructor
  · intro hrefused front f back hfiles hbreaks
    by_contra hfront
    exact hrefused (.broken front back f hfiles hbreaks hfront)
  · rintro hfront (⟨f, hfiles, hrules, houtside⟩ | ⟨front, back, f, hfiles, hbreaks, hdropped⟩)
    · exact (h f hfiles).elim hrules houtside
    · exact hdropped (hfront front f back hfiles hbreaks)

/-- A file that can be asked is no special case if it is the only one. -/
theorem ignores_eq_anyIgnores (h : f.rules = [] ∨ f.Covers names) :
    f.ignores names = anyIgnores names [f] := by
  have hasked : ¬ (f.rules ≠ [] ∧ ¬ f.Covers names) := by tauto
  rw [ignores_eq, anyIgnores_cons, if_neg hasked]
  by_cases hbreaks : f.Breaks names
  · simp [hbreaks]
  · by_cases hmatches : f.Matches names <;> simp [hbreaks, hmatches, anyIgnores]

/-- The files in use answer for every place where they do not refuse to, and say whether one of them
drops what is there. -/
theorem isIgnored_eq_ok_iff {ignored : Bool} : isIgnored files names = .ok ignored ↔
    ¬ Refused files names ∧ (ignored = true ↔ Dropped files names) := by
  by_cases h : ∀ f, files = [f] → f.rules = [] ∨ f.Covers names
  · have hsame : isIgnored files names = anyIgnores names files := by
      unfold isIgnored
      split
      next f => exact ignores_eq_anyIgnores (h f rfl)
      next => rfl
    rw [hsame, anyIgnores_eq_ok_iff, not_refused_iff h]
  · obtain ⟨f, rfl, hrules, houtside⟩ : ∃ f, files = [f] ∧ f.rules ≠ [] ∧ ¬ f.Covers names := by
      push Not at h
      exact h
    have hfault : isIgnored [f] names = .error .outsideDirectory := by
      rw [isIgnored, ignores_eq, if_pos ⟨hrules, houtside⟩]
    rw [hfault]
    exact iff_of_false (by simp) fun h => h.1 (.outside f rfl hrules houtside)

theorem isIgnored_of_not_refused (h : ¬ Refused files names) :
    isIgnored files names = .ok (decide (Dropped files names)) :=
  isIgnored_eq_ok_iff.mpr ⟨h, decide_eq_true_iff⟩

end Files

/-! ## Enumeration -/

/-- The ignore files in use: those of the paths that count which lead to a file. -/
def inUse (tree : FileTree) (root : String) (selection : Selection) : List IgnoreFile :=
  (ignorePaths tree root selection).filterMap fun path =>
    (tree.read path).toOption.bind fun content => (IgnoreFile.ofBytes path content).toOption

/-- Whether a path leads to no file, or to an ignore file that can be read on its own. -/
def ParsesAlone (tree : FileTree) (path : String) : Prop :=
  ∀ content, tree.read path = .ok content → ∃ f, IgnoreFile.ofBytes path content = .ok f

instance (tree : FileTree) (path : String) : Decidable (ParsesAlone tree path) :=
  decidable_of_iff (((tree.read path).toOption.all fun content =>
    (IgnoreFile.ofBytes path content).isOk) = true) <| by
    unfold ParsesAlone
    cases tree.read path with
    | error fault => simp [Except.toOption]
    | ok content =>
      cases h : IgnoreFile.ofBytes path content with
      | error fault => simp [Except.toOption, h, Except.isOk, Except.toBool]
      | ok f => simp [Except.toOption, h, Except.isOk, Except.toBool]

/-- The paths that enumeration asks whether there is a file: where an ignore file may stand, and
everything below the directory. -/
def askedPaths (tree : FileTree) (root : String) (selection : Selection) : List String :=
  passedOver tree root selection ++ ignorePaths tree root selection ++
    (entriesBelow tree root).map fun entry => pathBelow root entry.1

section Enumeration
variable {tree : FileTree} {root : String} {selection : Selection}

theorem ignoreFile?_eq_ok_iff {path : String} {found : Option IgnoreFile}
    (hparse : ParsesAlone tree path) :
    ignoreFile? tree path = .ok found ↔ tree.isTooLong path = false ∧
      found = (tree.read path).toOption.bind fun content =>
        (IgnoreFile.ofBytes path content).toOption := by
  unfold ignoreFile?
  cases hlong : tree.isTooLong path with
  | true => simp
  | false =>
    cases hread : tree.read path with
    | error fault => simp [Except.toOption, eq_comm]
    | ok content =>
      obtain ⟨f, hf⟩ := hparse content hread
      simp [hf, Except.toOption, Functor.map, Except.map, eq_comm]

theorem ignoreFiles_eq_ok_iff {files : List IgnoreFile}
    (hparse : ∀ path ∈ ignorePaths tree root selection, ParsesAlone tree path) :
    ignoreFiles tree root selection = .ok files ↔
      (∀ path ∈ passedOver tree root selection ++ ignorePaths tree root selection,
        tree.isTooLong path = false) ∧ files = inUse tree root selection := by
  have hok (path : String) (hpath : path ∈ ignorePaths tree root selection) :
      (∃ found, ignoreFile? tree path = .ok found) ↔ tree.isTooLong path = false := by
    simp only [ignoreFile?_eq_ok_iff (hparse path hpath), exists_and_left, exists_eq, and_true]
  unfold ignoreFiles
  by_cases hpassed : ∀ path ∈ passedOver tree root selection, tree.isTooLong path = false
  · have hany : (passedOver tree root selection).any tree.isTooLong = false := by
      simpa using hpassed
    rw [hany, if_neg (by decide), filterMapM_eq_ok_iff, List.forall_mem_append,
      and_iff_right hpassed, forall₂_congr hok]
    refine and_congr_right fun hshort => ?_
    rw [inUse, List.filterMap_congr]
    intro path hpath
    rw [(ignoreFile?_eq_ok_iff (hparse path hpath)).mpr ⟨hshort path hpath, rfl⟩]
    rfl
  · have hany : (passedOver tree root selection).any tree.isTooLong = true := by simpa using hpassed
    rw [hany, if_pos rfl]
    exact iff_of_false (by simp) fun h => hpassed (List.forall_mem_append.mp h.1).1

/-- An entry has an answer unless its path is too long or the ignore files refuse to answer for it.
It is then filtered by its names, by the ignore files and by its path. -/
theorem wanted?_eq_ok_iff {files : List IgnoreFile} {entry : List String × FileTree.Entry}
    {found : Option String} :
    let top := Path.components (Path.normalize root)
    let candidate := (fileNames? entry).filter selection.admits
    wanted? tree root selection files entry = .ok found ↔
      tree.isTooLong (pathBelow root entry.1) = false ∧
      (∀ names, candidate = some names → ¬ Refused files (top ++ names)) ∧
      found = ((candidate.filter fun names => ¬ Dropped files (top ++ names)).map
        Path.ofPieces).filter selection.matches := by
  intro top candidate
  rw [wanted?, show (fileNames? entry).filter selection.admits = candidate from rfl,
    show Path.components (Path.normalize root) = top from rfl]
  clear_value top candidate
  cases hlong : tree.isTooLong (pathBelow root entry.1) with
  | true => simp
  | false =>
    cases candidate with
    | none => simp [eq_comm]
    | some names =>
      by_cases hrefused : Refused files (top ++ names)
      · cases hignored : isIgnored files (top ++ names) with
        | error fault => simp [hignored, hrefused, Except.map]
        | ok ignored => exact absurd hrefused (isIgnored_eq_ok_iff.mp hignored).1
      · rw [eq_comm (a := found)]
        by_cases hdropped : Dropped files (top ++ names) <;>
          simp [isIgnored_of_not_refused hrefused, hrefused, hdropped, Except.map,
            Option.filter_some]

/-- The paths of the files that are left by names, by ignore files and by paths. -/
def keptPaths (root : String) (selection : Selection) (files : List IgnoreFile)
    (found : List (List String)) : List String :=
  (((found.filter selection.admits).filter fun names =>
    ¬ Dropped files (Path.components (Path.normalize root) ++ names)).map Path.ofPieces).filter
      selection.matches

theorem mem_admitted_iff {names : List String} :
    names ∈ (regularFiles tree root).filter selection.admits ↔
      ∃ entry ∈ entriesBelow tree root,
        (fileNames? entry).filter selection.admits = some names := by
  simp only [List.mem_filter, (regularFiles_perm tree root).mem_iff, List.mem_filterMap,
    Option.filter_eq_some_iff]
  constructor
  · rintro ⟨⟨entry, hentry, hnames⟩, hadmits⟩
    exact ⟨entry, hentry, hnames, hadmits⟩
  · rintro ⟨entry, hentry, hnames, hadmits⟩
    exact ⟨⟨entry, hentry, hnames⟩, hadmits⟩

/-- The visits come to their end if all the entries have an answer, in whichever order they are. -/
theorem visits_eq_ok_iff {files : List IgnoreFile} {paths : List String} :
    (visited tree root).filterMapM (wanted? tree root selection files) = .ok paths ↔
      (∀ entry ∈ entriesBelow tree root, tree.isTooLong (pathBelow root entry.1) = false) ∧
      (∀ names ∈ (regularFiles tree root).filter selection.admits,
        ¬ Refused files (Path.components (Path.normalize root) ++ names)) ∧
      paths = keptPaths root selection files ((visited tree root).filterMap fileNames?) := by
  have hall : (∀ entry ∈ visited tree root,
      ∃ answer, wanted? tree root selection files entry = .ok answer) ↔
      (∀ entry ∈ entriesBelow tree root, tree.isTooLong (pathBelow root entry.1) = false) ∧
        ∀ names ∈ (regularFiles tree root).filter selection.admits,
          ¬ Refused files (Path.components (Path.normalize root) ++ names) := by
    simp only [mem_visited, wanted?_eq_ok_iff, exists_and_left, exists_eq, and_true,
      mem_admitted_iff]
    constructor
    · intro h
      refine ⟨fun entry hentry => (h entry hentry).1, ?_⟩
      rintro names ⟨entry, hentry, hnames⟩
      exact (h entry hentry).2 names hnames
    · intro h entry hentry
      exact ⟨h.1 entry hentry, fun names hnames => h.2 names ⟨entry, hentry, hnames⟩⟩
  rw [filterMapM_eq_ok_iff, hall, and_assoc]
  refine and_congr_right fun hshort => and_congr_right fun hanswers => ?_
  rw [keptPaths, ← filterMap_filter_map, List.filterMap_congr]
  intro entry hentry
  obtain ⟨answer, hanswer⟩ := hall.mpr ⟨hshort, hanswers⟩ entry hentry
  rw [hanswer, (wanted?_eq_ok_iff.mp hanswer).2.2]
  rfl

/-- What the visits yield is put into the order of the files. -/
theorem mergeSort_keptPaths (files : List IgnoreFile) :
    (keptPaths root selection files ((visited tree root).filterMap fileNames?)).mergeSort
      (fun a b => a ≤ b) = keptPaths root selection files (regularFiles tree root) := by
  have hperm : ((visited tree root).filterMap fileNames?).Perm (regularFiles tree root) :=
    ((visited_perm tree root).filterMap _).trans (regularFiles_perm tree root).symm
  have hsorted := (((ascending_regularFiles tree root).filter selection.admits).filter fun names =>
    ¬ Dropped files (Path.components (Path.normalize root) ++ names))
  apply mergeSort_paths
  · exact (((hperm.filter _).filter _).map _).filter _
  · exact (List.pairwise_map.mpr hsorted).filter _

/-- Once the ignore files are read, enumeration comes to its end unless a path is too long or the
files refuse to answer for a candidate. -/
theorem sourceFiles_eq_ok_iff_of_files {files : List IgnoreFile} {found : List String}
    (hfiles : ignoreFiles tree root selection = .ok files) :
    sourceFiles tree root selection = .ok found ↔
      (∀ entry ∈ entriesBelow tree root, tree.isTooLong (pathBelow root entry.1) = false) ∧
      (∀ names ∈ (regularFiles tree root).filter selection.admits,
        ¬ Refused files (Path.components (Path.normalize root) ++ names)) ∧
      found = keptPaths root selection files (regularFiles tree root) := by
  rw [sourceFiles_eq_map hfiles]
  cases hvisits : (visited tree root).filterMapM (wanted? tree root selection files) with
  | error fault =>
    refine iff_of_false (by simp [Except.map]) fun h => ?_
    cases hvisits.symm.trans (visits_eq_ok_iff.mpr ⟨h.1, h.2.1, rfl⟩)
  | ok paths =>
    obtain ⟨hshort, hanswers, rfl⟩ := visits_eq_ok_iff.mp hvisits
    rw [Except.map, mergeSort_keptPaths]
    exact ⟨fun h => ⟨hshort, hanswers, (Except.ok.inj h).symm⟩, fun h => congrArg _ h.2.2.symm⟩

/-- Given ignore files that can be read, enumeration comes to its end unless a path is too long or
the files refuse to answer for a candidate, and what it yields are the wanted files which none of
the ignore files above them drops. -/
theorem sourceFiles_eq_ok_iff {found : List String}
    (hparse : ∀ path ∈ ignorePaths tree root selection, ParsesAlone tree path) :
    let files := inUse tree root selection
    let top := Path.components (Path.normalize root)
    let candidates := (regularFiles tree root).filter selection.admits
    sourceFiles tree root selection = .ok found ↔
      (∀ path ∈ askedPaths tree root selection, tree.isTooLong path = false) ∧
      (∀ names ∈ candidates, ¬ Refused files (top ++ names)) ∧
      found = ((candidates.filter fun names => ¬ Dropped files (top ++ names)).map
        Path.ofPieces).filter selection.matches := by
  intro files top candidates
  rw [askedPaths, List.forall_mem_append, List.forall_mem_map, and_assoc]
  cases hfiles : ignoreFiles tree root selection with
  | error fault =>
    refine iff_of_false (by simp [sourceFiles, hfiles, bind, Except.bind]) fun h => ?_
    cases hfiles.symm.trans ((ignoreFiles_eq_ok_iff hparse).mpr ⟨h.1, rfl⟩)
  | ok used =>
    obtain ⟨hshort, rfl⟩ := (ignoreFiles_eq_ok_iff hparse).mp hfiles
    rw [and_iff_right hshort]
    exact sourceFiles_eq_ok_iff_of_files hfiles

end Enumeration

def layeredTree : FileTree :=
  ⟨[(["r"], .directory), (["r", ".gitignore"],
    .file (Text.Utf8.encode "*.log\n!keep.log\n".toList)), (["r", "a.log"], .file []),
    (["r", "keep.log"], .file []), (["r", "sub"], .directory), (["r", "x.tmp"], .file []),
    (["r", "sub", ".gitignore"], .file (Text.Utf8.encode "*.tmp\n*p.log\n".toList)),
    (["r", "sub", "keep.log"], .file []), (["r", "sub", "x.tmp"], .file []),
    (["r", "sub", "y.py"], .file [])]⟩

theorem regularFiles_layeredTree : regularFiles layeredTree "/r" =
    [[".gitignore"], ["a.log"], ["keep.log"], ["sub", ".gitignore"], ["sub", "keep.log"],
      ["sub", "x.tmp"], ["sub", "y.py"], ["x.tmp"]] := by
  apply regularFiles_eq_of_pairwise <;> decide +kernel

/-- The inner ignore file counts in its directory alone, and what it says there is not undone by the
outer one. -/
theorem sourceFiles_eq_ok_iff_layered :
    let selection : Selection := { nestedIgnore := true }
    let found := [".gitignore", "keep.log", "sub/.gitignore", "sub/y.py", "x.tmp"]
    (∀ path ∈ ignorePaths layeredTree "/r" selection, ParsesAlone layeredTree path) ∧
      sourceFiles layeredTree "/r" selection = .ok found ∧
      ∀ names ∈ (regularFiles layeredTree "/r").filter selection.admits,
        ¬ Refused (inUse layeredTree "/r" selection) ("r" :: names) := by
  intro selection found
  have hparse : ∀ path ∈ ignorePaths layeredTree "/r" selection, ParsesAlone layeredTree path := by
    rw [ignorePaths, regularFiles_layeredTree]
    decide +kernel
  have hfound : sourceFiles layeredTree "/r" selection = .ok found := by
    have hvisit : IsVisit layeredTree "/r" (entriesBelow layeredTree "/r") := by decide +kernel
    have hperm : [".gitignore", "keep.log", "x.tmp", "sub/.gitignore", "sub/y.py"].Perm found := by
      decide
    refine hvisit.sourceFiles_eq_ok ?_ hperm (by decide +kernel)
    rw [ignoreFiles, ignorePaths, regularFiles_layeredTree]
    decide +kernel
  have htop : Path.components (Path.normalize "/r") = ["r"] := by decide +kernel
  have hanswered := ((sourceFiles_eq_ok_iff hparse).mp hfound).2.1
  rw [htop] at hanswered
  exact ⟨hparse, hfound, hanswered⟩

/-- A directory with the given entries in it, next to a file that no rule is about. -/
def treeWith (entries : List (Location × FileTree.Entry)) : FileTree :=
  ⟨(["r"], .directory) :: entries ++ [(["r", "z.py"], .file [])]⟩

def innerIgnoreFile : List (Location × FileTree.Entry) :=
  [(["r", "sub"], .directory),
    (["r", "sub", ".gitignore"], .file (Text.Utf8.encode "x.py\n".toList))]

/-- Ignore files that can all be read, and no answer: the only one lies further down, though with
another one beside it there is an answer; a rule has its range upside down; a link has too long a
name for its target. -/
theorem sourceFiles_faults :
    let inner := treeWith innerIgnoreFile
    let both := treeWith
      ((["r", ".gitignore"], .file (Text.Utf8.encode "y.py\n".toList)) :: innerIgnoreFile)
    let reversed := treeWith [(["r", ".gitignore"], .file (Text.Utf8.encode "[z-a]\n".toList))]
    let linked := treeWith [(["r", "a.py"], .link (String.ofList (List.replicate 256 'a')))]
    ((∀ path ∈ ignorePaths inner "/r" { nestedIgnore := true }, ParsesAlone inner path) ∧
      sourceFiles inner "/r" { nestedIgnore := true } = .error .outsideDirectory) ∧
    sourceFiles both "/r" { nestedIgnore := true } =
      .ok [".gitignore", "sub/.gitignore", "z.py"] ∧
    ((∀ path ∈ ignorePaths reversed "/r" {}, ParsesAlone reversed path) ∧
      sourceFiles reversed "/r" {} = .error .unusableRule) ∧
    sourceFiles linked "/r" {} = .error .nameTooLong := by
  intro inner both reversed linked
  have hinner : regularFiles inner "/r" = [["sub", ".gitignore"], ["z.py"]] := by
    apply regularFiles_eq_of_pairwise <;> decide +kernel
  have hboth : regularFiles both "/r" = [[".gitignore"], ["sub", ".gitignore"], ["z.py"]] := by
    apply regularFiles_eq_of_pairwise <;> decide +kernel
  refine ⟨⟨?_, ?_⟩, ?_, ⟨by decide +kernel, ?_⟩, ?_⟩
  · rw [ignorePaths, hinner]
    decide +kernel
  · have hvisit : IsVisit inner "/r" [(["sub"], .directory), (["z.py"], .file []),
        (["sub", ".gitignore"], .file (Text.Utf8.encode "x.py\n".toList))] := by decide +kernel
    apply hvisit.sourceFiles_eq_error
    rw [ignoreFiles, ignorePaths, hinner]
    decide +kernel
  · have hvisit : IsVisit both "/r" [([".gitignore"], .file (Text.Utf8.encode "y.py\n".toList)),
        (["sub"], .directory), (["z.py"], .file []),
        (["sub", ".gitignore"], .file (Text.Utf8.encode "x.py\n".toList))] := by decide +kernel
    have hperm : [".gitignore", "z.py", "sub/.gitignore"].Perm
        [".gitignore", "sub/.gitignore", "z.py"] := by decide
    refine hvisit.sourceFiles_eq_ok ?_ hperm (by decide +kernel)
    rw [ignoreFiles, ignorePaths, hboth]
    decide +kernel
  · have hvisit : IsVisit reversed "/r" (entriesBelow reversed "/r") := by decide +kernel
    exact hvisit.sourceFiles_eq_error (by decide +kernel)
  · have hvisit : IsVisit linked "/r" (entriesBelow linked "/r") := by decide +kernel
    exact hvisit.sourceFiles_eq_error (by decide +kernel)

end Scan

end CodeAtlas
