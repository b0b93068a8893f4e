import CodeAtlas.Proofs.Distance
import CodeAtlas.Proofs.Impact.Layers
import CodeAtlas.Proofs.References.TwoPass

/-! # The impact of a name

A name leads to the names of the symbols around its references. What depends on a name is found by a
breadth-first search along this relation: the layer of a depth holds the references to all names
that are one step nearer, in the order in which these names are first come across. A limit on the
number of sites cuts the list of all layers.
-/
namespace CodeAtlas.Impact
open Distance References

/-! ## The search without bounds -/

section Relation
variable (tree : FileTree) (c : Corpus) (hint : Hint)

/-- The symbol around a mention. -/
def around (m : Mention) : Option Symbol := enclosing? (c.symbols tree m.path).value m.line

/-- A mention as a site: with the name of the symbol around it, or with the empty name. -/
def annotate (m : Mention) : Site :=
  { file := m.path, line := m.line, content := m.content,
    enclosing := ((around tree c m).map (·.name)).getD "" }

/-- The names that a name leads to: those of the symbols around its references. -/
def leadsTo (name : String) : List String :=
  (allReferences tree c hint name).filterMap fun m => (around tree c m).map (·.name)

/-- The references in the layer of a depth: those to the names at the distance before it. -/
def referencesAt (name : String) (k : Nat) : List Mention :=
  (level (leadsTo tree c hint) name (k - 1)).flatMap (allReferences tree c hint)

/-- The sites in the layer of a depth. -/
def nameSites (name : String) (k : Nat) : List Site :=
  (referencesAt tree c hint name k).map (annotate tree c)

/-- What the layer of a depth is called. -/
def nameLabel (k : Nat) : String := label k (if k = 1 then "references" else "dependents")

/-- The layers behind a name without a limit on the number of sites. -/
def nameLayers (name : String) (start count : Nat) : List Layer :=
  layersFrom nameLabel (nameSites tree c hint name) start count

variable {tree c hint}

theorem referencesAt_succ (name : String) (k : Nat) : referencesAt tree c hint name (k + 1) =
    (level (leadsTo tree c hint) name k).flatMap (allReferences tree c hint) := rfl

theorem flatMap_leadsTo (names : List String) :
    names.flatMap (leadsTo tree c hint) =
      (names.flatMap (allReferences tree c hint)).filterMap fun m =>
        (around tree c m).map (·.name) := by
  rw [List.filterMap_flatMap]
  rfl

theorem nameSites_stop (name : String) (k : Nat) (h : nameSites tree c hint name k = []) :
    nameSites tree c hint name (k + 1) = [] := by
  cases k with
  | zero => exact h
  | succ k =>
    have hreferences :
        (level (leadsTo tree c hint) name k).flatMap (allReferences tree c hint) = [] :=
      List.map_eq_nil_iff.mp h
    have hlevel : level (leadsTo tree c hint) name (k + 1) = [] := by
      rw [level_succ, flatMap_leadsTo, hreferences]
      rfl
    rw [nameSites, referencesAt_succ, hlevel]
    rfl

/-- Symbols without a name are come across like others, but nothing refers to them. -/
theorem flatMap_allReferences_filter (names : List String) :
    (names.filter (!·.isEmpty)).flatMap (allReferences tree c hint) =
      names.flatMap (allReferences tree c hint) := by
  induction names with
  | nil => rfl
  | cons name rest ih =>
    by_cases hname : name = ""
    · subst hname
      rw [List.filter_cons_of_neg (by decide), ih, List.flatMap_cons,
        allReferences_empty, List.nil_append]
    · rw [List.filter_cons_of_pos (by simpa using hname), List.flatMap_cons, List.flatMap_cons, ih]

theorem filter_enclosing_annotate (mentions : List Mention) :
    ((mentions.map (annotate tree c)).map (·.enclosing)).filter (!·.isEmpty) =
      (mentions.filterMap fun m => (around tree c m).map (·.name)).filter (!·.isEmpty) := by
  induction mentions with
  | nil => rfl
  | cons m rest ih =>
    cases hm : around tree c m with
    | none => simpa [annotate, hm] using ih
    | some s => simp only [List.map_cons, annotate, hm, Option.map_some, Option.getD_some,
        List.filterMap_cons, List.filter_cons, ih]

end Relation

/-! ## The steps of the loop -/

/-- The lookup that an analysis goes by. -/
def lookupIn (tree : FileTree) (c : Corpus) (hint : Hint) : Lookup :=
  { symbols := outlineOf (outlines tree c)
    references := fun name limit => References.search tree c name limit hint }

theorem symbolsOnce_value (l : Lookup) (asked : List String) (path : String) :
    (l.symbolsOnce asked path).value.1 = (l.symbols path).value := by
  unfold Lookup.symbolsOnce
  split <;> rfl

theorem newNames_fst (visited : List String) (sites : List Site) :
    (newNames visited sites).1 = fresh visited ((sites.map (·.enclosing)).filter (!·.isEmpty)) := by
  induction sites generalizing visited with
  | nil => rfl
  | cons s rest ih =>
    by_cases hempty : s.enclosing.isEmpty = true
    · simp [newNames, hempty, ih]
    · by_cases hvisited : s.enclosing ∈ visited
      · simp [newNames, hempty, hvisited, ih, fresh]
      · simp [newNames, hempty, hvisited, ih, fresh]

theorem mem_newNames_snd {visited : List String} {sites : List Site} {name : String} :
    name ∈ (newNames visited sites).2 ↔ name ∈ visited ∨ name ∈ (newNames visited sites).1 := by
  induction sites generalizing visited with
  | nil => simp [newNames]
  | cons s rest ih =>
    unfold newNames
    split
    · exact ih
    · simp only [ih, List.mem_cons]
      exact or_assoc.trans or_left_comm

section Steps
variable {tree : FileTree} {c : Corpus} {hint : Hint}

theorem lookupIn_symbols {path : String} (h : path ∈ c.paths) :
    (lookupIn tree c hint).symbols path = c.symbols tree path := by
  have hlookup (paths : List String) (h : path ∈ paths) :
      (paths.map fun p => (p, Thunk.mk fun _ => c.symbols tree p)).lookup path =
        some (Thunk.mk fun _ => c.symbols tree path) := by
    induction paths with
    | nil => cases h
    | cons p rest ih =>
      by_cases hp : path = p
      · subst hp
        rw [List.map_cons, List.lookup_cons_self]
      · have hne : (path == p) = false := beq_false_of_ne hp
        rw [List.map_cons, List.lookup_cons, hne]
        exact ih ((List.mem_cons.mp h).resolve_left hp)
  change outlineOf (outlines tree c) path = _
  rw [outlineOf, outlines, hlookup c.paths h]
  rfl

theorem lookupIn_references (name : String) (limit : Nat) :
    ((lookupIn tree c hint).references name limit).value.references =
      (allReferences tree c hint name).take limit :=
  search_references tree c hint name limit

theorem sites_value (asked : List String) {mentions : List Mention}
    (hpaths : ∀ m ∈ mentions, m.path ∈ c.paths) :
    ((lookupIn tree c hint).sites asked mentions).value.1 = mentions.map (annotate tree c) := by
  induction mentions generalizing asked with
  | nil => rfl
  | cons m rest ih =>
    obtain ⟨hm, hrest⟩ := List.forall_mem_cons.mp hpaths
    have hsymbols : ((lookupIn tree c hint).symbolsOnce asked m.path).value.1 =
        (c.symbols tree m.path).value := by
      rw [symbolsOnce_value, lookupIn_symbols hm]
    simp only [Lookup.sites, Logged.value_bind, Logged.value_pure, List.map_cons]
    rw [ih _ hrest, hsymbols]
    rfl

theorem sitesOfNames_value (limit : Nat) (asked names : List String) :
    ((lookupIn tree c hint).sitesOfNames limit asked names).value.1 =
      ((names.flatMap (allReferences tree c hint)).map (annotate tree c)).take limit := by
  induction names generalizing limit asked with
  | nil => cases limit <;> rfl
  | cons name rest ih =>
    cases limit with
    | zero => rfl
    | succ limit =>
      have hpaths : ∀ m ∈ (allReferences tree c hint name).take (limit + 1), m.path ∈ c.paths :=
        fun m hm => path_mem_of_mem_allReferences tree c hint name (List.mem_of_mem_take hm)
      simp only [Lookup.sitesOfNames, Logged.value_bind, Logged.value_pure]
      rw [ih, sites_value _ (by rwa [lookupIn_references]), lookupIn_references, List.flatMap_cons,
        List.map_append, List.take_append, List.map_take, List.length_take]
      have hleft :
          limit + 1 - min (limit + 1) ((allReferences tree c hint name).map
          (annotate tree c)).length = limit +
          1 - ((allReferences tree c hint name).map (annotate tree c)).length := by omega
      rw [hleft]

end Steps

/-! ## The loop -/

section Loop
variable {tree : FileTree} {c : Corpus} {hint : Hint} {name : String}

/-- The visited names are those that have been seen after `k` rounds, the empty one aside. -/
def Visits (tree : FileTree) (c : Corpus) (hint : Hint) (name : String) (k : Nat)
    (visited : List String) : Prop :=
  ∀ other ≠ "", other ∈ visited ↔ other ∈ seen (leadsTo tree c hint) name k

/-- Going through the sites of a layer gives the names of the next level. -/
theorem newNames_nameSites {k : Nat} {visited : List String}
    (hvisited : Visits tree c hint name k visited) :
    (newNames visited (nameSites tree c hint name (k + 1))).1 =
      (level (leadsTo tree c hint) name (k + 1)).filter (!·.isEmpty) := by
  rw [newNames_fst, nameSites, filter_enclosing_annotate, referencesAt_succ, ← flatMap_leadsTo,
    level_succ, filter_fresh]
  refine fresh_congr fun other hother => hvisited other ?_
  simpa using (List.mem_filter.mp hother).2

theorem visits_newNames {k : Nat} {visited : List String}
    (hvisited : Visits tree c hint name k visited) :
    Visits tree c hint name (k + 1) (newNames visited (nameSites tree c hint name (k + 1))).2 := by
  intro other hother
  have hnonempty : (!other.isEmpty) = true := by simpa using hother
  rw [mem_newNames_snd, newNames_nameSites hvisited, hvisited other hother, List.mem_filter,
    seen_succ, List.mem_append, or_comm, hnonempty]
  exact or_congr_left (and_iff_left rfl)

/-- The references to the new names are the next layer, cut to the limit. -/
theorem sitesOfNames_newNames {k : Nat} {visited : List String}
    (hvisited : Visits tree c hint name k visited) (limit : Nat) (asked : List String) :
    ((lookupIn tree c hint).sitesOfNames limit asked
        (newNames visited (nameSites tree c hint name (k + 1))).1).value.1 =
      (nameSites tree c hint name (k + 2)).take limit := by
  rw [sitesOfNames_value, newNames_nameSites hvisited, flatMap_allReferences_filter]
  rfl

theorem newNames_ne_nil {k : Nat} {visited : List String}
    (hvisited : Visits tree c hint name k visited)
    (hsites : nameSites tree c hint name (k + 2) ≠ []) :
    (newNames visited (nameSites tree c hint name (k + 1))).1 ≠ [] := by
  intro h
  rw [newNames_nameSites hvisited] at h
  refine hsites (List.map_eq_nil_iff.mpr ?_)
  rw [referencesAt_succ, ← flatMap_allReferences_filter, h]
  rfl

theorem layersBehind_no_limit (l : Lookup) (more depth : Nat) (visited asked : List String)
    (previous : List Site) : (l.layersBehind more depth 0 visited asked previous).value = [] := by
  cases more <;> rfl

theorem layersBehind_succ (l : Lookup) (more depth : Nat) {limit : Nat} (hlimit : limit ≠ 0)
    (visited asked : List String) (previous : List Site) :
    (l.layersBehind (more + 1) depth limit visited asked previous).value =
      let names := (newNames visited previous).1
      let found := (l.sitesOfNames limit asked names).value
      if names = [] ∨ found.1 = [] then []
      else { depth, label := label depth "dependents", sites := found.1 } ::
        (l.layersBehind more (depth + 1) (limit - found.1.length) (newNames visited previous).2
          found.2 found.1).value := by
  rw [Lookup.layersBehind, if_neg hlimit]
  simp only [List.isEmpty_iff]
  by_cases hnames : (newNames visited previous).1 = []
  · simp [hnames]
  · rw [if_neg hnames]
    by_cases hsites : (l.sitesOfNames limit asked (newNames visited previous).1).value.1 = []
    · rw [if_pos (Or.inr hsites)]
      simp [hsites]
    · rw [if_neg (not_or.mpr ⟨hnames, hsites⟩), Logged.value_bind, Logged.value_bind, if_neg hsites]
      rfl

/-- The loop goes from level to level. As long as the limit is not reached the previous layer is
whole, and the visited names are those that have been seen. -/
theorem layersBehind_value (more k limit : Nat) {visited : List String} (asked : List String)
    (hvisited : Visits tree c hint name k visited) :
    ((lookupIn tree c hint).layersBehind more (k + 2) limit visited asked
        (nameSites tree c hint name (k + 1))).value =
      keepSites limit (nameLayers tree c hint name (k + 2) more) := by
  induction more generalizing k limit visited asked with
  | zero => rfl
  | succ more ih =>
    by_cases hlimit : limit = 0
    · rw [hlimit, layersBehind_no_limit, keepSites_zero]
    · rw [layersBehind_succ _ _ _ hlimit]
      simp only [sitesOfNames_newNames hvisited]
      by_cases hsites : nameSites tree c hint name (k + 2) = []
      · rw [if_pos (Or.inr (by rw [hsites, List.take_nil])), nameLayers,
          layersFrom_eq_nil (nameSites_stop name) hsites]
        rfl
      · rw [if_neg (not_or.mpr ⟨newNames_ne_nil hvisited hsites, take_ne_nil hlimit hsites⟩)]
        refine cons_eq_keepSites nameLabel hlimit hsites (fun hle => ?_) (fun hlt => ?_)
        · rw [List.take_of_length_le hle]
          exact ih (k + 1) _ _ (visits_newNames hvisited)
        · rw [List.length_take_of_le (Nat.le_of_lt hlt), Nat.sub_self, layersBehind_no_limit]

end Loop

/-! ## The analysis -/

section Analysis
variable {tree : FileTree} {c : Corpus} {hint : Hint} {name : String}

/-- The target for a name: no bound has a part in it. -/
def nameTarget (tree : FileTree) (c : Corpus) (hint : Hint) (name : String) : Target :=
  ((lookupIn tree c hint).target name (search tree c name 0 hint).value.definition).value.1

theorem lookupIn_target (limit : Nat) :
    ((lookupIn tree c hint).target name
        ((lookupIn tree c hint).references name limit).value.definition).value.1 =
      nameTarget tree c hint name := by
  rw [nameTarget, search_definition tree c hint name 0 limit]
  rfl

theorem direct_sites (limit : Nat) (asked : List String) :
    ((lookupIn tree c hint).sites asked
        ((lookupIn tree c hint).references name limit).value.references).value.1 =
      (nameSites tree c hint name 1).take limit := by
  have hpaths : ∀ m ∈ (allReferences tree c hint name).take limit, m.path ∈ c.paths := fun m hm =>
    path_mem_of_mem_allReferences tree c hint name (List.mem_of_mem_take hm)
  rw [lookupIn_references, sites_value asked hpaths, nameSites, referencesAt_succ, level_zero,
    List.flatMap_singleton, List.map_take]

theorem ofName_succ (l : Lookup) (name : String) (more limit : Nat) :
    (l.ofName name (more + 1) limit).value =
      let direct := (l.references name limit).value
      let target := (l.target name direct.definition).value
      let found := (l.sites target.2 direct.references).value
      ofLayers target.1 (if found.1 = [] then [] else
        { depth := 1, label := label 1 "references", sites := found.1 } ::
          (l.layersBehind more 2 (limit - found.1.length) [name] found.2 found.1).value) := by
  simp only [Lookup.ofName, Logged.value_bind, List.isEmpty_iff]
  split
  · rfl
  · rfl

theorem ofName_value (depth limit : Nat) :
    ((lookupIn tree c hint).ofName name depth limit).value =
      ofLayers (nameTarget tree c hint name)
        (keepSites limit (nameLayers tree c hint name 1 depth)) := by
  cases depth with
  | zero =>
    simp only [Lookup.ofName, Logged.value_bind, Logged.value_pure, lookupIn_target]
    rfl
  | succ more =>
    rw [ofName_succ]
    simp only [lookupIn_target, direct_sites]
    refine congrArg (ofLayers _) ?_
    by_cases hlimit : limit = 0
    · rw [hlimit, if_pos List.take_zero, keepSites_zero]
    · by_cases hsites : nameSites tree c hint name 1 = []
      · rw [hsites, if_pos List.take_nil, nameLayers,
          layersFrom_eq_nil (nameSites_stop name) hsites]
        rfl
      · rw [if_neg (take_ne_nil hlimit hsites)]
        refine cons_eq_keepSites nameLabel hlimit hsites (fun hle => ?_) (fun hlt => ?_)
        · rw [List.take_of_length_le hle]
          exact layersBehind_value more 0 _ _ fun _ _ => Iff.rfl
        · rw [List.length_take_of_le (Nat.le_of_lt hlt), Nat.sub_self, layersBehind_no_limit]

theorem analyze_name {target : String} (htarget : isFileTarget target = false) (depth limit : Int)
    (importersOf : Option (String → List String)) :
    (analyze tree c target depth limit hint importersOf).value =
      .ok (ofLayers (nameTarget tree c hint target)
        (keepSites limit.toNat (nameLayers tree c hint target 1 depth.toNat))) := by
  simp only [analyze, htarget, Bool.false_eq_true, if_false]
  exact congrArg Except.ok (ofName_value depth.toNat limit.toNat)

theorem length_sites_nameLayers (depth : Nat) :
    ((nameLayers tree c hint name 1 depth).flatMap (·.sites)).length =
      ((List.range' 1 depth).flatMap (referencesAt tree c hint name)).length := by
  rw [nameLayers, flatMap_sites_layersFrom]
  simp only [nameSites, List.length_flatMap, List.length_map]

/-- A target is a name if it has neither a slash nor a dot. -/
theorem isFileTarget_eq_false_iff {target : String} :
    isFileTarget target = false ↔ '/' ∉ target.toList ∧ '.' ∉ target.toList := by
  simp only [isFileTarget, List.any_eq_false, Bool.or_eq_true, beq_iff_eq, not_or]
  constructor
  · exact fun h => ⟨fun hslash => (h _ hslash).1 rfl, fun hdot => (h _ hdot).2 rfl⟩
  · rintro ⟨hslash, hdot⟩ ch hch
    exact ⟨ne_of_mem_of_not_mem hch hslash, ne_of_mem_of_not_mem hch hdot⟩

/-- The analysis of a name is a breadth-first search along the names of the symbols around
references, as long as the limit leaves room for all references. The target itself is never gone
through again. -/
theorem analyze_name_breadthFirst {target : String} {depth limit : Int}
    (importersOf : Option (String → List String)) (hslash : '/' ∉ target.toList)
    (hdot : '.' ∉ target.toList) (hlimit :
    ((List.range' 1 depth.toNat).flatMap (referencesAt tree c hint target)).length ≤ limit) :
    IsBreadthFirst (leadsTo tree c hint) target (level (leadsTo tree c hint) target) ∧
      (∀ k, 1 ≤ k → target ∉ level (leadsTo tree c hint) target k) ∧
      ∃ i, (analyze tree c target depth limit hint importersOf).value = .ok i ∧
        i.layers = layersFrom nameLabel (fun k =>
          (referencesAt tree c hint target k).map (annotate tree c))
          1 depth.toNat ∧
        ∀ k : Nat, 1 ≤ k → k ≤ depth.toNat →
          sitesAt i.layers k = (referencesAt tree c hint target k).map (annotate tree c) ∧
            ((∃ layer ∈ i.layers, layer.depth = k) ↔ referencesAt tree c hint target k ≠ []) := by
  obtain ⟨i, hi, hlayers⟩ :
      ∃ i, (analyze tree c target depth limit hint importersOf).value = .ok i ∧
      i.layers = nameLayers tree c hint target 1 depth.toNat := by
    refine ⟨_, analyze_name (isFileTarget_eq_false_iff.mpr ⟨hslash, hdot⟩) depth limit importersOf,
      ?_⟩
    exact keepSites_eq_self (fun _ => sites_ne_nil_of_mem)
      ((length_sites_nameLayers depth.toNat).trans_le (by omega))
  refine ⟨isBreadthFirst_level _ _, fun k hk htarget => ?_, i, hi, hlayers, fun k hpos hk => ?_⟩
  · have hzero : k = 0 := (mem_level_iff.mp htarget).unique (isDistance_zero_iff.mpr rfl)
    omega
  · have hrange : 1 ≤ k ∧ k < 1 + depth.toNat := by omega
    rw [hlayers, nameLayers, sitesAt_layersFrom, if_pos hrange, exists_depth_layersFrom_iff]
    exact ⟨rfl, (and_iff_right hrange).trans (not_congr List.map_eq_nil_iff)⟩

end Analysis

/-- Two functions that call each other. -/
def mutualTree : FileTree :=
  ⟨[(["r"], .directory), (["r", "a.py"], .file (Text.Utf8.encode "def A():\n  B()\n".toList)),
    (["r", "b.py"], .file (Text.Utf8.encode "def B():\n  A()\n".toList))]⟩

/-- Each function leads to the other one. The limit is reached, and there is no third layer. -/
theorem analyze_name_breadthFirst_mutual :
    let c := Corpus.ofPaths "/r" ["a.py", "b.py"]
    let hint : Hint := fun _ => none
    ('/' ∉ "A".toList ∧ '.' ∉ "A".toList) ∧
      ((List.range' 1 5).flatMap (referencesAt mutualTree c hint "A")).length = 2 ∧
      "A" ∈ leadsTo mutualTree c hint "B" ∧ "B" ∈ leadsTo mutualTree c hint "A" ∧
      ∃ i, (analyze mutualTree c "A" 5 2 hint none).value = .ok i ∧
        sitesAt i.layers 1 = [⟨"b.py", 2, "A()", "B"⟩] ∧
          sitesAt i.layers 2 = [⟨"a.py", 2, "B()", "A"⟩] ∧
        ¬ ∃ layer ∈ i.layers, layer.depth = (3 : Nat) := by
  intro c hint
  have hslash : '/' ∉ "A".toList := by decide
  have hdot : '.' ∉ "A".toList := by decide
  have hlength : ((List.range' 1 5).flatMap (referencesAt mutualTree c hint "A")).length = 2 := by
    decide +kernel
  have hlimit : ((List.range' 1 (5 : Int).toNat).flatMap
      (referencesAt mutualTree c hint "A")).length ≤ (2 : Int) :=
    Int.ofNat_le.mpr (Nat.le_of_eq hlength)
  obtain ⟨-, -, i, hi, -, hlayer⟩ := analyze_name_breadthFirst none hslash hdot hlimit
  refine ⟨⟨hslash, hdot⟩, hlength, by decide +kernel, by decide +kernel, i, hi, ?_, ?_, ?_⟩
  · exact (hlayer 1 (by decide) (by decide)).1.trans (by decide +kernel)
  · exact (hlayer 2 (by decide) (by decide)).1.trans (by decide +kernel)
  · exact fun h => (hlayer 3 (by decide) (by decide)).2.mp h (by decide +kernel)

end CodeAtlas.Impact
