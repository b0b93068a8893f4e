import CodeAtlas.Go.Outline

/-! # Results in signatures

A function that returns a list is shown with its declarations. Parentheses tell several of them from
one, and a name from a type: they stand around more than one declaration and around one with a name.
But where a comment comes before the only declaration, the list does not begin with a name, and the
parentheses are missing.
-/
namespace CodeAtlas.Go

/-- The text of a declaration in a parameter list: its names, dots if it is variadic, and
its type. -/
def Member.text : Member → String
  | .comment => ""
  | .parameter names variadic type =>
    (if names = [] then "" else ", ".intercalate names ++ " ") ++
      ((if variadic then "..." else "") ++ type.shown)

/-- The declarations of a parameter list, which may have comments anywhere between them. -/
def declarations (members : List Member) : List Member := members.filter (· ≠ .comment)

/-- The declarations of a parameter list with commas between them. -/
def listed (members : List Member) : String :=
  ", ".intercalate ((declarations members).map Member.text)

/-- There is one declaration in the list, and it has a name. -/
def HasSingleName (members : List Member) : Prop :=
  ∃ names variadic type, declarations members = [.parameter names variadic type] ∧ names ≠ []

/-- A reader could not tell without parentheses what is returned. -/
def NeedsParentheses (members : List Member) : Prop :=
  1 < (declarations members).length ∨ HasSingleName members

section Members
variable {members rest : List Member} {names : List String} {variadic : Bool} {type : TypeExpr}

@[simp] theorem declarations_parameter :
    declarations (.parameter names variadic type :: rest) = .parameter names variadic type ::
      declarations rest := rfl

theorem shown?_eq :
    (Member.parameter names variadic type).shown? =
    some (Member.parameter names variadic type).text := by
  by_cases hnames : names = []
  · simp [Member.shown?, Member.text, hnames]
  · have hempty : names.isEmpty = false := by simpa using hnames
    simp [Member.shown?, Member.text, hnames, hempty]

theorem shownMembers_eq (members : List Member) :
    shownMembers members = (declarations members).map Member.text := by
  induction members with
  | nil => rfl
  | cons member rest ih =>
    rw [shownMembers] at ih ⊢
    cases member with
    | comment => exact ih
    | parameter names variadic type =>
      rw [List.filterMap_cons, shown?_eq, ih, declarations_parameter, List.map_cons]

/-- A list with one declaration begins with a name if the declaration has one and no comment comes
before it. -/
theorem begins_with_name_iff (h : declarations members = [.parameter names variadic type]) :
    members.head?.any Member.isNamed = true ↔ names ≠ [] ∧ members.head? ≠ some .comment := by
  cases members with
  | nil => cases h
  | cons member rest =>
    cases member with
    | comment => simp [Member.isNamed]
    | parameter names' variadic' type' =>
      obtain ⟨hfirst, -⟩ := List.cons.inj h
      obtain ⟨rfl, -, -⟩ := Member.parameter.inj hfirst
      simp [Member.isNamed]

/-- Without a need for parentheses there is one declaration, and it is a type. -/
theorem exists_type_of_not_needsParentheses (hne : declarations members ≠ [])
    (h : ¬ NeedsParentheses members) :
    ∃ variadic type, declarations members = [.parameter [] variadic type] := by
  obtain ⟨hcount, hname⟩ := not_or.mp h
  cases hdeclared : declarations members with
  | nil => exact absurd hdeclared hne
  | cons member others =>
    obtain rfl : others = [] := by
      rw [hdeclared, List.length_cons] at hcount
      exact List.eq_nil_of_length_eq_zero (by omega)
    cases member with
    | comment =>
      have hmem : Member.comment ∈ declarations members := by simp [hdeclared]
      simp [declarations] at hmem
    | parameter names variadic type =>
      obtain rfl : names = [] := Decidable.byContradiction fun hnames =>
          hname ⟨names, variadic, type, hdeclared, hnames⟩
      exact ⟨variadic, type, rfl⟩

/-- Which lists are shown in parentheses. -/
theorem shown_in_parentheses_iff (hne : declarations members ≠ []) :
    (1 < (shownMembers members).length || members.head?.any Member.isNamed) = true ↔
      NeedsParentheses members ∧ ¬ (HasSingleName members ∧ members.head? = some .comment) := by
  rw [shownMembers_eq, List.length_map, Bool.or_eq_true, decide_eq_true_eq]
  by_cases hcount : 1 < (declarations members).length
  · have hmany : ¬ HasSingleName members := by
      rintro ⟨names, variadic, type, hdeclared, -⟩
      simp [hdeclared] at hcount
    simp [NeedsParentheses, hcount, hmany]
  · by_cases hname : HasSingleName members
    · obtain ⟨names, variadic, type, hdeclared, hnames⟩ := id hname
      rw [begins_with_name_iff hdeclared]
      simp [NeedsParentheses, hcount, hname, hnames]
    · have hneed : ¬ NeedsParentheses members := not_or.mpr ⟨hcount, hname⟩
      obtain ⟨variadic, type, hdeclared⟩ := exists_type_of_not_needsParentheses hne hneed
      rw [begins_with_name_iff hdeclared]
      simp [hcount, hneed]

theorem shown_list (hne : declarations members ≠ []) : (Result.list members).shown =
    if 1 < (shownMembers members).length || members.head?.any Member.isNamed then " " ++
      ("(" ++ listed members ++ ")")
    else " " ++ listed members := by
  have hempty : (shownMembers members).isEmpty = false := by simpa [shownMembers_eq] using hne
  have hopen : " (" = " " ++ "(" := by decide
  simp only [Result.shown, hempty, Bool.false_eq_true, if_false, hopen, String.append_assoc]
  rw [listed, ← shownMembers_eq]

end Members

theorem ne_parenthesized (text : String) : text ≠ "(" ++ text ++ ")" := fun h => by
  have hlength := congrArg String.length h
  simp only [String.length_append] at hlength
  have hopen : "(".length = 1 := by decide
  omega

/-- The result of a function that returns a list stands in parentheses exactly if it needs them and
no comment comes before the name of a single declaration. Without parentheses it is the text of the
declarations, and that of the type where there is no need for them. -/
theorem signature_of_list (f : Function) (members : List Member)
    (hresult : f.result = .list members) (hdeclared : declarations members ≠ []) :
    ∃ results, f.signature = ({ f with result := .nothing } : Function).signature ++ " " ++
      results ∧ (results = "(" ++ listed members ++ ")" ↔
        NeedsParentheses members ∧ ¬ (HasSingleName members ∧ members.head? = some .comment)) ∧
      (results = "(" ++ listed members ++ ")" ∨ results = listed members) ∧
      (¬ NeedsParentheses members → ∃ variadic type,
        declarations members = [.parameter [] variadic type] ∧
        results = (if variadic then "..." else "") ++ type.shown) := by
  have hsignature : f.signature = ({ f with result := .nothing } : Function).signature ++
      (Result.list members).shown := by
    simp only [Function.signature, hresult, Function.receiverType?, Result.shown,
      String.append_empty]
  rw [hsignature, shown_list hdeclared, ← shown_in_parentheses_iff hdeclared]
  split
  next hshown =>
    refine ⟨"(" ++ listed members ++ ")", by simp only [String.append_assoc],
      iff_of_true rfl hshown, .inl rfl, fun hneed => ?_⟩
    exact absurd ((shown_in_parentheses_iff hdeclared).mp hshown).1 hneed
  next hshown =>
    refine ⟨listed members, by simp only [String.append_assoc],
      iff_of_false (ne_parenthesized _) hshown, .inr rfl, fun hneed => ?_⟩
    obtain ⟨variadic, type, hsingle⟩ := exists_type_of_not_needsParentheses hdeclared hneed
    refine ⟨variadic, type, hsingle, ?_⟩
    simp [listed, hsingle, Member.text]

/-- Comments between a name and its type and behind them do not count. -/
theorem signature_of_list_commented :
    let members : List Member := [.parameter ["err"] false ⟨"error", .named "error"⟩, .comment]
    ∃ f, SourceFile.ofText "func (r T) F() (err /* c */ error /* d */)\n".toList = ⟨[.function f],
      true⟩ ∧ f.result = .list members ∧ declarations members ≠ [] ∧
      f.signature = "func (T) F() (err error)" := by
  intro members
  let f : Function := ⟨"F", some [.parameter ["r"] false ⟨"T", .named "T"⟩], [],
      .list members, 1, 1⟩
  have hneed : NeedsParentheses members := .inr ⟨_, _, _, rfl, by decide⟩
  obtain ⟨results, hsignature, hiff, -⟩ := signature_of_list f members rfl (by decide)
  obtain rfl := hiff.mpr ⟨hneed, fun h => absurd h.2 (by decide)⟩
  refine ⟨f, by decide +kernel, rfl, by decide, hsignature.trans ?_⟩
  decide +kernel

/-- With a comment before its name, the only declaration is shown without parentheses. -/
theorem signature_of_list_behind_comment :
    let members : List Member := [.comment, .parameter ["err"] false ⟨"error", .named "error"⟩]
    ∃ f, SourceFile.ofText "func F() (/* c */ err error)\n".toList = ⟨[.function f], true⟩ ∧
      f.result = .list members ∧ NeedsParentheses members ∧ f.signature = "func F() err error" := by
  intro members
  refine ⟨⟨"F", none, [], .list members, 1, 1⟩, by decide +kernel, rfl, .inr ⟨_, _, _,
    rfl, by decide⟩, ?_⟩
  decide +kernel

end CodeAtlas.Go
