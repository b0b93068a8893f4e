import CodeAtlas.Proofs.Go.Declaration

/-! # What stands at the top level of a file

The declarations of a file as trees of names, with the places between which they stand in the text.
Types, constants and variables come one by one or in groups, and one specification of constants or
variables may declare several names. Every item that is read is such a declaration, or else a
package clause, an import or a statement. All that it declares is recorded in order; of constants,
the commas between them too.
-/
namespace CodeAtlas.Go
open Text Reader

/-! ## Names -/

/-- An identifier, with the place where it begins and the one behind it. -/
structure Name where
  text : String
  start : Cursor
  behind : Cursor

/-- The identifier is the next token at a place. -/
structure Name.StandsAt (n : Name) (c : Cursor) : Prop where
  start_eq : n.start = c.skip
  identifier : n.start.identifier? = some (n.text, n.behind)

/-- Identifiers with commas between them, each comma with its place. -/
inductive NameList where
  | last (n : Name)
  | comma (n : Name) (place : Cursor) (rest : NameList)

def NameList.names : NameList → List Name
  | .last n => [n]
  | .comma n _ rest => n :: rest.names

/-- The identifiers and commas are the next tokens at a place and end at another one. -/
inductive NameList.StandsAt : NameList → Cursor → Cursor → Prop
  | last {n : Name} {c : Cursor} (h : n.StandsAt c) : StandsAt (.last n) c n.behind
  | comma {n : Name} {c d e : Cursor} {rest : NameList} (crossing : Bool) (h : n.StandsAt c)
    (hcomma : (n.behind.skip crossing).sign? "," = some d) (hrest : rest.StandsAt d e) :
    StandsAt (.comma n (n.behind.skip crossing) rest) c e

/-! ## Declarations -/

/-- What is told of something that is declared: its name and kind, and its first and last line. -/
structure Declared where
  name : String
  kind : SymbolKind
  line : Int
  endLine : Int
  deriving DecidableEq

def Declared.ofSymbol (s : Symbol) : Declared := ⟨s.name, s.kind, s.line, s.endLine⟩

def Name.declared (kind : SymbolKind) (n : Name) : Declared :=
  ⟨n.text, kind, n.start.line, n.behind.line⟩

def NameList.declared (kind : SymbolKind) (names : NameList) : List Declared :=
  names.names.map (Name.declared kind)

/-- The same, with the commas counted as names. -/
def NameList.marked (kind : SymbolKind) : NameList → List Declared
  | .last n => [n.declared kind]
  | .comma n place rest =>
    n.declared kind :: ⟨",", kind, place.line, place.line⟩ :: rest.marked kind

/-- A declared type: it reaches from its name to the end of what it is declared to be. -/
structure TypePart where
  name : Name
  isAlias : Bool
  shape : TypeShape
  behind : Cursor

def TypePart.declared (t : TypePart) : Declared :=
  ⟨t.name.text, if t.isAlias then .type else t.shape.kind, t.name.start.line, t.behind.line⟩

/-- A function or method: it reaches from its keyword to the end of its body. -/
structure FunctionPart where
  name : Name
  isMethod : Bool
  start : Cursor
  behind : Cursor

def FunctionPart.declared (f : FunctionPart) : Declared :=
  ⟨f.name.text, if f.isMethod then .method else .function, f.start.line, f.behind.line⟩

/-- What may stand at the top level of a file. The specifications of a declaration are listed
whether they stand in a group or not. -/
inductive Declaration where
  | function (f : FunctionPart)
  | types (specs : List TypePart)
  | constants (specs : List NameList)
  | vars (specs : List NameList)
  /-- A package clause, an import or a statement. -/
  | other

/-- What a top-level declaration declares. -/
def Declaration.declared : Declaration → List Declared
  | .function f => [f.declared]
  | .types specs => specs.map TypePart.declared
  | .constants specs => specs.flatMap (NameList.declared .constant)
  | .vars specs => specs.flatMap (NameList.declared .variable)
  | .other => []

/-- What is recorded of a top-level declaration: commas between constants count as names. -/
def Declaration.recorded : Declaration → List Declared
  | .constants specs => specs.flatMap (NameList.marked .constant)
  | d => d.declared

/-! ## Where declarations stand -/

section Stands
variable {α β : Type}

/-- Things one behind the other with terminators between them, the last one with or without a
terminator. -/
inductive Series (stands : Cursor → α → Cursor → Prop) : Cursor → List α → Cursor → Prop
  | nil (c : Cursor) : Series stands c [] c
  | last {c d : Cursor} {a : α} (h : stands c a d) : Series stands c [a] d
  | cons {c d e f : Cursor} {a : α} {as : List α} (h : stands c a d)
      (hend : Reads terminator d () e)
    (hrest : Series stands e as f) : Series stands c (a :: as) f

/-- A single thing, or a series of them in parentheses. -/
inductive Grouped (stands : Cursor → α → Cursor → Prop) : Cursor → List α → Cursor → Prop
  | single {c d : Cursor} {a : α} (h : stands c a d) : Grouped stands c [a] d
  | group {c d e f : Cursor} {as : List α} (hopen : Reads (token "(") c () d)
      (hseries : Series stands d as e)
    (hclose : Reads (token ")") e () f) : Grouped stands c as f

end Stands

variable (g : Grammar)

/-- Constants with what they are set to, which may be missing. -/
def ConstantsStand (c : Cursor) (names : NameList) (d : Cursor) : Prop :=
  ∃ e given, names.StandsAt c e ∧ Reads (perhaps g.constantValue) e given d

/-- Variables with their type, their value or both. -/
def VariablesStand (c : Cursor) (names : NameList) (d : Cursor) : Prop :=
  ∃ e given, names.StandsAt c e ∧ Reads g.variableValue e given d

/-- A type with its name, its type parameters if there are any, and an equals sign if it is
an alias. -/
structure TypeStands (c : Cursor) (t : TypePart) (d : Cursor) : Prop where
  name : t.name.StandsAt c
  behind_eq : t.behind = d
  rest : ∃ e e', (t.name.behind = e ∨ Reads g.typeParameters t.name.behind () e) ∧
    (t.isAlias = true ∧ Reads Grammar.equals e () e' ∨ t.isAlias = false ∧ e = e') ∧
    Reads (g.type Grammar.ending) e' t.shape d

/-- The parameters, the result and the body of a function. -/
def TailStands (c d : Cursor) : Prop :=
  ∃ parameters result e e', Reads g.parameters c parameters e ∧
    Reads (g.result Grammar.ending) e result e' ∧ Reads g.body e' () d

/-- A function with its keyword, its name and type parameters, or a method with its receiver in
front of the name. -/
inductive FunctionStands : Cursor → FunctionPart → Cursor → Prop
  | function {c d e e' : Cursor} {n : Name} (hkeyword : Reads (keyword "func") c () e)
      (hname : n.StandsAt e)
    (hparameters : n.behind = e' ∨ Reads g.typeParameters n.behind () e')
    (htail : TailStands g e' d) : FunctionStands c ⟨n, false, c.skip, d⟩ d
  | method {c d e e' : Cursor} {n : Name} {receiver : List Member}
      (hkeyword : Reads (keyword "func") c () e)
    (hreceiver : Reads g.parameters e receiver e') (hname : n.StandsAt e')
    (htail : TailStands g n.behind d) : FunctionStands c ⟨n, true, c.skip, d⟩ d

/-- Something that declares nothing at the top level. -/
inductive OtherStands : Cursor → Cursor → Prop
  | package {c d e : Cursor} {name : String} (hkeyword : Reads (keyword "package") c () e)
      (hname : Reads identifier e name d) :
    OtherStands c d
  | imports {c d : Cursor} {paths : Specs String} (h : Reads Grammar.importDeclaration c paths d) :
      OtherStands c d
  | statement {c d : Cursor} {mayEnd : Bool} (h : Reads g.statement c mayEnd d) : OtherStands c d

/-- The declaration stands between two places. What declares nothing begins with no keyword of a
declaration and is no function. -/
inductive Declaration.StandsAt : Declaration → Cursor → Cursor → Prop
  | function {c d : Cursor} {f : FunctionPart} (h : FunctionStands g c f d) :
      StandsAt (.function f) c d
  | types {c d e : Cursor} {specs : List TypePart} (hkeyword : Reads (keyword "type") c () e)
    (hspecs : Grouped (TypeStands g) e specs d) : StandsAt (.types specs) c d
  | constants {c d e : Cursor} {specs : List NameList} (hkeyword : Reads (keyword "const") c () e)
    (hspecs : Grouped (ConstantsStand g) e specs d) : StandsAt (.constants specs) c d
  | vars {c d e : Cursor} {specs : List NameList} (hkeyword : Reads (keyword "var") c () e)
    (hspecs : Grouped (VariablesStand g) e specs d) : StandsAt (.vars specs) c d
  | other {c d : Cursor} (hkeyword : ∀ word ∈ ["type", "const", "var"],
      ∀ e, ¬ Reads (keyword word) c () e)
    (hfunction : ∀ f e, ¬ FunctionStands g c f e) (h : OtherStands g c d) : StandsAt .other c d

/-! ## Reading names -/

section Reading
variable {g : Grammar} {c d e : Cursor}

theorem exists_name_of_boundName {b : BoundName} (h : Reads Grammar.boundName c b d) :
    ∃ n : Name, n.StandsAt c ∧ n.behind = d ∧
      ∀ kind, n.declared kind = Declared.ofSymbol (b.symbol kind) := by
  obtain ⟨hname, hline⟩ := Grammar.reads_boundName.mp h
  have hend : d.line = b.line := by rw [(isWordAt_of_identifier? hname).line_eq, hline]
  refine ⟨⟨b.text, c.skip, d⟩, ⟨rfl, hname⟩, rfl, fun kind => ?_⟩
  simp [Name.declared, Declared.ofSymbol, BoundName.symbol, hend, hline]

/-- What bound names tell as names of constants or variables. -/
def toldAs (kind : SymbolKind) (names : List BoundName) : List Declared :=
  (names.map (BoundName.symbol kind)).map Declared.ofSymbol

/-- The names of a specification are those of a list, and so are the commas between them. -/
structure ValueSpec.Tells (spec : ValueSpec) (names : NameList) : Prop where
  names_eq : ∀ kind, names.declared kind = toldAs kind spec.names
  marked_eq : ∀ kind, names.marked kind = toldAs kind spec.marked

/-- The induction is on the commas. Each of them has a name in front of it, and a list behind it
that begins with another name. -/
theorem exists_of_commaNames {crossing : Bool} {first : BoundName} {others : List (Nat × BoundName)}
    (hfirst : Reads Grammar.boundName c first e)
    (h : ReadsAll (Grammar.commaName crossing) e others d) :
    ∃ names : NameList, names.StandsAt c d ∧ ValueSpec.Tells ⟨first, others⟩ names := by
  induction h generalizing c first with
  | nil e =>
    obtain ⟨n, hn, rfl, hdeclared⟩ := exists_name_of_boundName hfirst
    refine ⟨.last n, .last hn, fun kind => ?_, fun kind => ?_⟩
    · simp [NameList.declared, NameList.names, toldAs, ValueSpec.names, hdeclared]
    · simp [NameList.marked, toldAs, ValueSpec.marked, hdeclared]
  | cons hcomma _ ih =>
    simp only [Grammar.commaName, reads_bind, reads_start, reads_pure] at hcomma
    obtain ⟨_, _, ⟨rfl, rfl⟩, _, e', hsign, b, _, hname, rfl, rfl⟩ := hcomma
    rw [reads_token, skip_skip] at hsign
    obtain ⟨n, hn, rfl, hdeclared⟩ := exists_name_of_boundName hfirst
    obtain ⟨names, hnames, htells⟩ := ih hname
    refine ⟨.comma n _ names, .comma crossing hn hsign hnames, fun kind => ?_, fun kind => ?_⟩
    · have hrest := htells.names_eq kind
      simp only [NameList.declared, toldAs, ValueSpec.names, List.map_cons] at hrest ⊢
      rw [NameList.names, List.map_cons, hdeclared, hrest]
    · have hrest := htells.marked_eq kind
      simp only [toldAs, ValueSpec.marked, List.flatMap_cons, List.map_cons, List.cons_append,
        List.nil_append] at hrest ⊢
      rw [NameList.marked, hdeclared, hrest]
      rfl

theorem exists_of_nameList {crossing : Bool} {spec : ValueSpec}
    (h : Reads (Grammar.nameList crossing) c spec d) :
    ∃ names : NameList, names.StandsAt c d ∧ spec.Tells names := by
  simp only [Grammar.nameList, reads_bind, reads_pure] at h
  obtain ⟨first, e, hfirst, others, _, hothers, rfl, rfl⟩ := h
  exact exists_of_commaNames hfirst hothers.of_many

theorem exists_of_constantSpec {found : ValueSpec × Bool} (h : Reads g.constantSpec c found d) :
    ∃ names, ConstantsStand g c names d ∧
      names.marked .constant = toldAs .constant found.1.marked := by
  simp only [Grammar.constantSpec, reads_bind, reads_pure] at h
  obtain ⟨spec, e, hspec, given, _, hgiven, rfl, rfl⟩ := h
  obtain ⟨names, hnames, htells⟩ := exists_of_nameList hspec
  exact ⟨names, ⟨e, given, hnames, hgiven⟩, htells.marked_eq .constant⟩

theorem exists_of_variableSpec {found : ValueSpec × Bool} (h : Reads g.variableSpec c found d) :
    ∃ names, VariablesStand g c names d ∧
      names.declared .variable = toldAs .variable found.1.names := by
  simp only [Grammar.variableSpec, reads_bind, reads_pure] at h
  obtain ⟨spec, e, hspec, given, _, hgiven, rfl, rfl⟩ := h
  obtain ⟨names, hnames, htells⟩ := exists_of_nameList hspec
  exact ⟨names, ⟨e, given, hnames, hgiven⟩, htells.names_eq .variable⟩

/-! ## Reading groups -/

section Groups
variable {α β γ : Type} {p : Reader α} {as : List α}

theorem series_of_readsAll (h : ReadsAll (p <* terminator) c as d) : Series (Reads p) c as d := by
  induction h with
  | nil c => exact .nil c
  | cons h _ ih =>
    obtain ⟨e, _, hread, hend⟩ := reads_seqLeft.mp h
    exact .cons hread hend ih

theorem series_of_terminatedUpTo {bound : Nat} (h : Reads (terminatedUpTo p bound) c as d) :
    Series (Reads p) c as d := by
  induction bound generalizing c as with
  | zero =>
    obtain ⟨rfl, rfl⟩ := reads_pure.mp h
    exact .nil c
  | succ bound ih =>
    rcases h.of_orElse with h | h
    · simp only [reads_bind, reads_pure] at h
      obtain ⟨a, e, hread, rest, _, hrest, rfl, rfl⟩ := h
      rcases hrest.of_orElse with hrest | hrest
      · obtain ⟨_, e', hend, hrest⟩ := reads_seqRight.mp hrest
        exact .cons hread hend (ih hrest)
      · obtain ⟨rfl, rfl⟩ := reads_pure.mp hrest
        exact .last hread
    · obtain ⟨rfl, rfl⟩ := reads_pure.mp h
      exact .nil c

variable {stands : Cursor → α → Cursor → Prop} {stands' : Cursor → β → Cursor → Prop}
  {u : α → γ} {v : β → γ}

/-- Each thing in a series may be told in another way. -/
theorem Series.exists_map (h : Series stands c as d)
    (hmap : ∀ c a d, stands c a d → ∃ b, stands' c b d ∧ v b = u a) :
    ∃ bs, Series stands' c bs d ∧ bs.map v = as.map u := by
  induction h with
  | nil c => exact ⟨[], .nil c, rfl⟩
  | last h =>
    obtain ⟨b, hb, heq⟩ := hmap _ _ _ h
    exact ⟨[b], .last hb, by simp [heq]⟩
  | cons h hend _ ih =>
    obtain ⟨b, hb, heq⟩ := hmap _ _ _ h
    obtain ⟨bs, hbs, heqs⟩ := ih
    exact ⟨b :: bs, .cons hb hend hbs, by simp [heq, heqs]⟩

theorem Grouped.exists_map (h : Grouped stands c as d)
    (hmap : ∀ c a d, stands c a d → ∃ b, stands' c b d ∧ v b = u a) :
    ∃ bs, Grouped stands' c bs d ∧ bs.map v = as.map u := by
  cases h with
  | single h =>
    obtain ⟨b, hb, heq⟩ := hmap _ _ _ h
    exact ⟨[b], .single hb, by simp [heq]⟩
  | group hopen hseries hclose =>
    obtain ⟨bs, hbs, heqs⟩ := hseries.exists_map hmap
    exact ⟨bs, .group hopen hbs hclose, heqs⟩

theorem grouped_of_valueDeclaration {word : String} {spec : Reader (ValueSpec × Bool)}
    {found : Specs ValueSpec × Bool} (h : Reads (Grammar.valueDeclaration word spec) c found d) :
    ∃ e specs, Reads (keyword word) c () e ∧ Grouped (Reads spec) e specs d ∧
      found.1.flatten = specs.map Prod.fst := by
  simp only [Grammar.valueDeclaration, reads_bind, reads_next?] at h
  obtain ⟨_, e, hword, _, _, ⟨rfl, rfl⟩, h⟩ := h
  split at h
  · simp only [Grammar.valueGroup, reads_bind, reads_pure] at h
    obtain ⟨_, _, ⟨_, e₁, hopen, specs, e₂, hspecs, _, _, hclose, rfl, rfl⟩, rfl, rfl⟩ := h
    exact ⟨e, specs, hword, .group hopen (series_of_readsAll hspecs.of_many) hclose, rfl⟩
  · simp only [reads_bind, reads_pure] at h
    obtain ⟨names, _, hnames, rfl, rfl⟩ := h
    exact ⟨e, [names], hword, .single hnames, rfl⟩

theorem grouped_of_typeDeclaration {types : Specs TypeSpec}
    (h : Reads g.typeDeclaration c types d) :
    ∃ e, Reads (keyword "type") c () e ∧ Grouped (Reads g.typeSpec) e types.flatten d := by
  simp only [Grammar.typeDeclaration, reads_bind, reads_next?] at h
  obtain ⟨_, e, hword, _, _, ⟨rfl, rfl⟩, h⟩ := h
  split at h
  · obtain ⟨specs, hgroup, rfl⟩ := reads_map.mp h
    obtain ⟨e₁, _, hgroup, hclose⟩ := reads_seqLeft.mp hgroup
    obtain ⟨_, e₂, hopen, hspecs⟩ := reads_seqRight.mp hgroup
    exact ⟨e, hword, .group hopen (series_of_terminatedUpTo hspecs) hclose⟩
  · obtain ⟨t, hspec, rfl⟩ := reads_map.mp h
    exact ⟨e, hword, .single hspec⟩

end Groups

/-! ## Reading types and functions -/

theorem exists_of_typeSpec {t : TypeSpec} (h : Reads g.typeSpec c t d) :
    ∃ part, TypeStands g c part d ∧ part.declared = Declared.ofSymbol t.symbol := by
  simp only [Grammar.typeSpec, reads_bind, reads_either, reads_seqRight] at h
  obtain ⟨b, e, hname, h⟩ := h
  obtain ⟨e', hparameters, h⟩ : ∃ e', (e = e' ∨ Reads g.typeParameters e () e') ∧
      Reads (g.declaredType b) e' t d := by
    rcases h with h | ⟨_, e', hparameters, h⟩
    · exact ⟨e, .inl rfl, h⟩
    · exact ⟨e', .inr hparameters, h⟩
  obtain ⟨hidentifier, hline⟩ := Grammar.reads_boundName.mp hname
  have hpart (isAlias : Bool) (e'' : Cursor)
      (hequals : isAlias = true ∧ Reads Grammar.equals e' () e'' ∨ isAlias = false ∧ e' = e'')
      (h : Reads (do
        let shape ← g.type Grammar.ending
        let d ← here
        return ({ name := b.text, isAlias, shape, line := b.line, endLine := d.line } :
        TypeSpec)) e'' t d) :
      ∃ part, TypeStands g c part d ∧ part.declared = Declared.ofSymbol t.symbol := by
    simp only [reads_bind, reads_here, reads_pure] at h
    obtain ⟨shape, _, htype, _, _, ⟨rfl, rfl⟩, rfl, rfl⟩ := h
    refine ⟨⟨⟨b.text, c.skip, e⟩, isAlias, shape, _⟩,
      ⟨⟨rfl, hidentifier⟩, rfl, e', e'', hparameters, hequals, htype⟩, ?_⟩
    simp [TypePart.declared, Declared.ofSymbol, TypeSpec.symbol, hline]
  rcases h.of_orElse with h | h
  · obtain ⟨_, e'', hequals, h⟩ := reads_seqRight.mp h
    exact hpart true e'' (.inl ⟨rfl, hequals⟩) h
  · exact hpart false e' (.inr ⟨rfl, rfl⟩) h

theorem reads_keyword_skip {word : String} {u : Unit} :
    Reads (keyword word) c.skip u d ↔ Reads (keyword word) c u d := by
  rw [reads_keyword, reads_keyword, skip_skip]

theorem exists_of_functionDeclaration {f : Function} (h : Reads g.functionDeclaration c f d) :
    ∃ part, FunctionStands g c part d ∧ part.declared = Declared.ofSymbol f.symbol := by
  simp only [Grammar.functionDeclaration, reads_bind, reads_start, reads_next?] at h
  obtain ⟨_, _, ⟨rfl, rfl⟩, _, e, hfunc, _, _, ⟨rfl, rfl⟩, h⟩ := h
  rw [reads_keyword_skip] at hfunc
  split at h
  · simp only [Grammar.methodTail, reads_bind, reads_here, reads_pure] at h
    obtain ⟨receiver, e₁, hreceiver, name, e₂, hname, _, _, hparameters, _, _, hresult, _, _, hbody,
        _, _, ⟨rfl, rfl⟩, rfl,
      rfl⟩ := h
    exact ⟨_, .method hfunc hreceiver (n := ⟨name, e₁.skip, e₂⟩) ⟨rfl, reads_identifier.mp hname⟩
      ⟨_, _, _, _, hparameters, hresult, hbody⟩, rfl⟩
  · simp only [Grammar.functionTail, reads_bind, reads_next?] at h
    obtain ⟨name, e₁, hname, _, _, ⟨rfl, rfl⟩, h⟩ := h
    have hn : (⟨name, e.skip, e₁⟩ : Name).StandsAt e := ⟨rfl, reads_identifier.mp hname⟩
    split at h
    · simp only [reads_bind, reads_here, reads_pure] at h
      obtain ⟨_, e₂, htypes, _, _, hparameters, _, _, hresult, _, _, hbody, _, _,
          ⟨rfl, rfl⟩, rfl, rfl⟩ := h
      exact ⟨_, .function hfunc hn (.inr htypes) ⟨_, _, _, _, hparameters, hresult, hbody⟩, rfl⟩
    · simp only [reads_bind, reads_here, reads_pure] at h
      obtain ⟨_, _, hparameters, _, _, hresult, _, _, hbody, _, _, ⟨rfl, rfl⟩, rfl, rfl⟩ := h
      exact ⟨_, .function hfunc hn (.inl rfl) ⟨_, _, _, _, hparameters, hresult, hbody⟩, rfl⟩

/-- The sign that is read is what comes next. -/
theorem peek?_of_token {s : String} {crossing : Bool} {ch : Char} {u : Unit}
    (hs : s.toList.head? = some ch) (h : Reads (token s crossing) c u d) :
    (c.skip crossing).peek? = some ch := by
  rw [Cursor.peek?, (spans_of_sign? (reads_token.mp h)).rest_eq, List.head?_append,
    hs, Option.some_or]

theorem peek?_of_parameters {members : List Member} (h : Reads g.parameters c members d) :
    c.skip.peek? = some '(' := by
  simp only [Grammar.parameters, reads_bind] at h
  obtain ⟨_, e, hopen, -⟩ := h
  exact peek?_of_token rfl hopen

theorem peek?_of_typeParameters {u : Unit} (h : Reads g.typeParameters c u d) :
    c.skip.peek? = some '[' := by
  simp only [Grammar.typeParameters, reads_bind] at h
  obtain ⟨_, e, hopen, -⟩ := h
  exact peek?_of_token rfl hopen

theorem Name.StandsAt.peek?_ne {n : Name} {ch : Char} (h : n.StandsAt c)
    (hch : isIdentifierStart ch = false) : c.skip.peek? ≠ some ch := by
  have hidentifier := h.identifier
  rw [h.start_eq] at hidentifier
  obtain ⟨first, hfirst, hstart⟩ := (isWordAt_of_identifier? hidentifier).peek?_eq
  rw [hfirst]
  rintro ⟨rfl⟩
  rw [hch] at hstart
  cases hstart

/-- Wherever a function stands, one can be read. -/
theorem exists_reads_of_functionStands {part : FunctionPart} (h : FunctionStands g c part d) :
    ∃ f, Reads g.functionDeclaration c f d := by
  simp only [Grammar.functionDeclaration, reads_bind, reads_start, reads_next?]
  cases h with
  | @function _ e e' n hfunc hname hparameters htail =>
    obtain ⟨parameters, result, e₁, e₂, hlist, hresult, hbody⟩ := htail
    have hparen : (e.skip.peek? == some '(') = false := by simpa using hname.peek?_ne (by decide)
    have hidentifier : Reads identifier e n.text n.behind := by
      rw [reads_identifier, ← hname.start_eq]
      exact hname.identifier
    let f : Function := ⟨n.text, none, parameters, result, c.skip.line, d.line⟩
    refine ⟨f, _, _, ⟨rfl, rfl⟩, (), e, reads_keyword_skip.mpr hfunc, _, e, ⟨rfl, rfl⟩, ?_⟩
    rw [hparen, if_neg Bool.false_ne_true]
    simp only [Grammar.functionTail, reads_bind, reads_next?]
    refine ⟨n.text, n.behind, hidentifier, _, _, ⟨rfl, rfl⟩, ?_⟩
    rcases hparameters with rfl | htypes
    · rw [if_neg (by simp [peek?_of_parameters hlist])]
      simp only [reads_bind, reads_here, reads_pure]
      exact ⟨parameters, e₁, hlist, result, e₂, hresult, (), d, hbody, d, d, ⟨rfl, rfl⟩, rfl, rfl⟩
    · rw [if_pos (by simp [peek?_of_typeParameters htypes])]
      simp only [reads_bind, reads_here, reads_pure]
      exact ⟨(), e', htypes, parameters, e₁, hlist, result, e₂, hresult, (), d, hbody, d, d,
        ⟨rfl, rfl⟩, rfl, rfl⟩
  | @method _ e e' n receiver hfunc hreceiver hname htail =>
    obtain ⟨parameters, result, e₁, e₂, hlist, hresult, hbody⟩ := htail
    have hidentifier : Reads identifier e' n.text n.behind := by
      rw [reads_identifier, ← hname.start_eq]
      exact hname.identifier
    let f : Function := ⟨n.text, some receiver, parameters, result, c.skip.line, d.line⟩
    refine ⟨f, _, _, ⟨rfl, rfl⟩, (), e, reads_keyword_skip.mpr hfunc, _, e, ⟨rfl, rfl⟩, ?_⟩
    rw [if_pos (by simp [peek?_of_parameters hreceiver])]
    simp only [Grammar.methodTail, reads_bind, reads_here, reads_pure]
    exact ⟨receiver, e', hreceiver, n.text, n.behind, hidentifier, parameters, e₁, hlist, result,
      e₂, hresult, (), d, hbody, d, d, ⟨rfl, rfl⟩, rfl, rfl⟩

/-! ## Reading items -/

/-- The keyword that stands at a place is the word ahead of it. -/
theorem wordAhead_of_keyword {word ahead : String} {u : Unit} (h : Reads (keyword word) c u d)
    (hahead : Reads Grammar.wordAhead c ahead e) : ahead = word := by
  obtain ⟨rfl, -⟩ := reads_look.mp hahead
  have hword := reads_keyword.mp h
  rw [Cursor.keyword?] at hword
  cases hfound : c.skip.word? with
  | none =>
    rw [hfound] at hword
    cases hword
  | some found =>
    rw [hfound] at hword
    exact beq_iff_eq.mp (Option.ite_none_right_eq_some.mp hword).1

theorem keyword_func_of_functionStands {part : FunctionPart} (h : FunctionStands g c part d) :
    ∃ e, Reads (keyword "func") c () e := by
  cases h with
  | function hkeyword => exact ⟨_, hkeyword⟩
  | method hkeyword => exact ⟨_, hkeyword⟩

/-- What is told of the specifications one by one is told of their names together. -/
theorem toldAs_flatMap {parts : List NameList} {specs : List (ValueSpec × Bool)} {kind : SymbolKind}
    {view : NameList → List Declared} {names : ValueSpec → List BoundName}
    (h : parts.map view = specs.map fun spec => toldAs kind (names spec.1)) :
    toldAs kind ((specs.map Prod.fst).flatMap names) = parts.flatMap view := by
  rw [toldAs, List.map_flatMap, List.map_flatMap, List.flatMap_map, List.flatMap_def,
    List.flatMap_def, h]
  rfl

/-- Every item that is read is a declaration that stands there, and its symbols are what is
recorded of it. -/
theorem exists_of_item {item : Item} {mayEnd : Bool} (h : Reads g.item c (item, mayEnd) d) :
    ∃ decl : Declaration, decl.StandsAt g c d ∧
      item.symbols.map Declared.ofSymbol = decl.recorded := by
  simp only [Grammar.item, reads_bind] at h
  obtain ⟨ahead, e, hahead, h⟩ := h
  obtain rfl : c = e := (reads_look.mp hahead).2
  -- a word ahead that is no keyword of a declaration
  have hkeyword (hno : ahead ∉ ["type", "const", "var"]) : ∀ word ∈ ["type", "const", "var"], ∀ e,
      ¬ Reads (keyword word) c () e := fun word hword e hread =>
        hno (wordAhead_of_keyword hread hahead ▸ hword)
  have hfunction (hno : ahead ≠ "func") : ∀ f e, ¬ FunctionStands g c f e := fun f e hf => by
    obtain ⟨e', hread⟩ := keyword_func_of_functionStands hf
    exact hno (wordAhead_of_keyword hread hahead)
  split at h
  · -- a package clause
    obtain ⟨_, e, hpackage, h⟩ := reads_bind.mp h
    obtain ⟨hitem, name, hname⟩ := reads_yielding.mp h
    obtain ⟨rfl, -⟩ := Prod.mk.inj hitem
    exact ⟨.other, .other (hkeyword (by decide)) (hfunction (by decide)) (.package hpackage hname),
      rfl⟩
  · -- imports
    simp only [reads_bind, reads_pure] at h
    obtain ⟨paths, _, himports, hitem, rfl⟩ := h
    obtain ⟨rfl, -⟩ := Prod.mk.inj hitem
    exact ⟨.other, .other (hkeyword (by decide)) (hfunction (by decide)) (.imports himports), rfl⟩
  · -- a function, or a statement where there is none
    rcases h.or_of_orElse with h | ⟨hnone, h⟩
    · simp only [reads_bind, reads_pure] at h
      obtain ⟨f, _, hread, hitem, rfl⟩ := h
      obtain ⟨rfl, -⟩ := Prod.mk.inj hitem
      obtain ⟨part, hpart, hdeclared⟩ := exists_of_functionDeclaration hread
      exact ⟨.function part, .function hpart, by simp [Item.symbols, Declaration.recorded,
        Declaration.declared, hdeclared]⟩
    · simp only [reads_bind, reads_pure] at h
      obtain ⟨_, _, hstatement, hitem, rfl⟩ := h
      obtain ⟨rfl, -⟩ := Prod.mk.inj hitem
      refine ⟨.other, .other (hkeyword (by decide))
        (fun part e hpart => ?_) (.statement hstatement), rfl⟩
      obtain ⟨f, hread⟩ := exists_reads_of_functionStands hpart
      refine hnone (.function f, true) e ?_
      simp only [reads_bind, reads_pure]
      exact ⟨f, e, hread, rfl, rfl⟩
  · -- types
    simp only [reads_bind, reads_pure] at h
    obtain ⟨types, _, htypes, hitem, rfl⟩ := h
    obtain ⟨rfl, -⟩ := Prod.mk.inj hitem
    obtain ⟨e, htype, hgrouped⟩ := grouped_of_typeDeclaration htypes
    obtain ⟨parts, hparts, hdeclared⟩ := hgrouped.exists_map fun _ _ _ => exists_of_typeSpec
    exact ⟨.types parts, .types htype hparts, by simp [Item.symbols, Declaration.recorded,
      Declaration.declared, hdeclared]⟩
  · -- constants
    simp only [reads_bind, reads_pure] at h
    obtain ⟨found, _, hnames, hitem, rfl⟩ := h
    obtain ⟨rfl, -⟩ := Prod.mk.inj hitem
    obtain ⟨e, specs, hconst, hgrouped, hfound⟩ := grouped_of_valueDeclaration hnames
    obtain ⟨parts, hparts, hmarked⟩ := hgrouped.exists_map fun _ _ _ => exists_of_constantSpec
    refine ⟨.constants parts, .constants hconst hparts, ?_⟩
    rw [Item.symbols, hfound]
    exact toldAs_flatMap hmarked
  · -- variables
    simp only [reads_bind, reads_pure] at h
    obtain ⟨found, _, hnames, hitem, rfl⟩ := h
    obtain ⟨rfl, -⟩ := Prod.mk.inj hitem
    obtain ⟨e, specs, hvar, hgrouped, hfound⟩ := grouped_of_valueDeclaration hnames
    obtain ⟨parts, hparts, hdeclared⟩ := hgrouped.exists_map fun _ _ _ => exists_of_variableSpec
    refine ⟨.vars parts, .vars hvar hparts, ?_⟩
    rw [Item.symbols, hfound]
    exact toldAs_flatMap hdeclared
  next hpackage himport hfunc htype hconst hvar =>
    simp only [reads_bind, reads_pure] at h
    obtain ⟨_, _, hstatement, hitem, rfl⟩ := h
    obtain ⟨rfl, -⟩ := Prod.mk.inj hitem
    have hno : ahead ∉ ["type", "const", "var"] := by simpa using ⟨htype, hconst, hvar⟩
    exact ⟨.other, .other (hkeyword hno) (hfunction hfunc) (.statement hstatement), rfl⟩

end Reading

end CodeAtlas.Go
