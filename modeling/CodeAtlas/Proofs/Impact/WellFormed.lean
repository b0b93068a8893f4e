import CodeAtlas.Proofs.Impact.Truncation
import Mathlib.Data.Finset.Card

/-! # Answers are well formed

Whatever the bounds are, the layers of an answer are numbered from one on without a gap, none of
them is empty, and the totals are those of the layers. Both modes cut one list of layers, so that it
is enough to look at layers without bounds and at the cut.
-/
namespace CodeAtlas.Impact

/-- The layers of an answer keep to the bounds, and its totals are those of the layers. -/
structure WellFormed (depth limit : Int) (i : Impact) : Prop where
  depths : i.layers.map (·.depth) = (List.range' 1 i.layers.length).map (↑)
  sites_ne_nil : ∀ layer ∈ i.layers, layer.sites ≠ []
  layers_le : (i.layers.length : Int) ≤ max depth 0
  sites_le : ((i.layers.flatMap (·.sites)).length : Int) ≤ max limit 0
  summary_sites : i.summary.sites = (i.layers.flatMap (·.sites)).length
  summary_files : i.summary.files = (files i).toFinset.card
  summary_depth : i.summary.depth = i.layers.length

/-! ## Totals -/

theorem distinct_eq_card (texts : List String) : distinct texts = texts.toFinset.card := by
  induction texts with
  | nil => rfl
  | cons s rest ih =>
    rw [distinct, List.toFinset_cons]
    by_cases hs : s ∈ rest
    · rw [if_pos (List.contains_iff_mem.mpr hs), ih,
        Finset.insert_eq_of_mem (List.mem_toFinset.mpr hs)]
    · rw [if_neg (mt List.contains_iff_mem.mp hs), ih,
        Finset.card_insert_of_notMem (mt List.mem_toFinset.mp hs)]

theorem depths_cons {layer : Layer} {rest : List Layer} {start : Nat}
    (h : (layer :: rest).map (·.depth) = (List.range' start (layer :: rest).length).map (↑)) :
    layer.depth = start ∧ rest.map (·.depth) = (List.range' (start + 1) rest.length).map (↑) := by
  simpa [List.range'_succ] using h

theorem deepest_of_depths {layers : List Layer} {start : Nat}
    (h : layers.map (·.depth) = (List.range' start layers.length).map (↑)) (hne : layers ≠ []) :
    deepest layers = start + layers.length - 1 := by
  induction layers generalizing start with
  | nil => exact absurd rfl hne
  | cons layer rest ih =>
    obtain ⟨hlayer, hrest⟩ := depths_cons h
    cases rest with
    | nil => simp [deepest, hlayer]
    | cons next rest =>
      rw [deepest, ih hrest (List.cons_ne_nil _ _), hlayer]
      · simp only [List.length_cons, Nat.cast_add, Nat.cast_one]
        omega
      · simp

/-! ## Layers under bounds -/

section Layers
variable {labelAt : Nat → String} {sites : Nat → List Site} {start count limit : Nat}
  {layers : List Layer}

theorem depths_layersFrom (hstop : ∀ k, sites k = [] → sites (k + 1) = []) :
    (layersFrom labelAt sites start count).map (·.depth) =
      (List.range' start (layersFrom labelAt sites start count).length).map (↑) := by
  induction count generalizing start with
  | zero => rfl
  | succ count ih =>
    by_cases h : sites start = []
    · rw [layersFrom_eq_nil hstop h]
      rfl
    · rw [layersFrom_succ h, List.map_cons, ih, List.length_cons, List.range'_succ, List.map_cons]

theorem length_layersFrom_le : (layersFrom labelAt sites start count).length ≤ count := by
  refine (List.length_filter_le _ _).trans_eq ?_
  rw [List.length_map, List.length_range']

theorem flatMap_sites_keepSites (limit : Nat) (layers : List Layer) :
    (keepSites limit layers).flatMap (·.sites) = (layers.flatMap (·.sites)).take limit := by
  induction layers generalizing limit with
  | nil => simp [keepSites]
  | cons layer rest ih =>
    rw [List.flatMap_cons, List.take_append, ← ih]
    by_cases hsites : layer.sites = []
    · simp [keepSites_cons_of_nil hsites, hsites]
    · by_cases hlimit : limit = 0
      · simp [hlimit, keepSites_zero]
      · rw [keepSites_cons hlimit hsites, List.flatMap_cons]

theorem sites_ne_nil_of_mem_keepSites {layer : Layer} (h : layer ∈ keepSites limit layers) :
    layer.sites ≠ [] := by
  induction layers generalizing limit with
  | nil => cases h
  | cons first rest ih =>
    by_cases hsites : first.sites = []
    · rw [keepSites_cons_of_nil hsites] at h
      exact ih h
    · by_cases hlimit : limit = 0
      · rw [hlimit, keepSites_zero] at h
        cases h
      · rw [keepSites_cons hlimit hsites] at h
        rcases List.mem_cons.mp h with rfl | h
        · exact take_ne_nil hlimit hsites
        · exact ih h

/-- A limit on the sites takes layers away at the end only. -/
theorem depths_keepSites (limit : Nat) (hsites : ∀ layer ∈ layers, layer.sites ≠ [])
    (hdepths : layers.map (·.depth) = (List.range' start layers.length).map (↑)) :
    (keepSites limit layers).map (·.depth) =
      (List.range' start (keepSites limit layers).length).map (↑) := by
  induction layers generalizing start limit with
  | nil => rfl
  | cons layer rest ih =>
    obtain ⟨hlayer, hrest⟩ := List.forall_mem_cons.mp hsites
    obtain ⟨hfirst, hothers⟩ := depths_cons hdepths
    by_cases hlimit : limit = 0
    · rw [hlimit, keepSites_zero]
      rfl
    · rw [keepSites_cons hlimit hlayer, List.map_cons, ih _ hrest hothers, List.length_cons,
        List.range'_succ, List.map_cons, hfirst]

theorem length_keepSites_le (limit : Nat) (layers : List Layer) :
    (keepSites limit layers).length ≤ layers.length := by
  induction layers generalizing limit with
  | nil => exact Nat.zero_le _
  | cons layer rest ih =>
    rw [keepSites]
    split
    · exact Nat.le_succ_of_le (ih _)
    · exact Nat.succ_le_succ (ih _)

end Layers

/-! ## Answers -/

section Answers
variable {tree : FileTree} {c : Corpus} {target : String} {depth limit : Int}
  {hint : References.Hint} {importersOf : Option (String → List String)} {i : Impact}

/-- There is an answer for the targets that can be analyzed only. -/
theorem hasAnswer_of_analyze
    (h : (analyze tree c target depth limit hint importersOf).value = .ok i) :
    HasAnswer tree c target := by
  intro hfile
  unfold analyze at h
  simp only [hfile, if_true] at h
  cases hpath : c.relativize tree target with
  | error fault =>
    rw [hpath] at h
    cases h
  | ok path =>
    by_cases hmem : path ∈ c.paths
    · exact ⟨path, hmem, rfl⟩
    · have hnot : c.paths.contains path = false := by simpa using hmem
      simp only [hpath, hnot, Bool.not_false, if_true] at h
      cases h

@[simp] theorem layers_ofLayers (t : Target) (layers : List Layer) :
    (ofLayers t layers).layers = layers := rfl

theorem summary_depth_ofLayers {t : Target} {layers : List Layer}
    (h : layers.map (·.depth) = (List.range' 1 layers.length).map (↑)) :
    (ofLayers t layers).summary.depth = layers.length := by
  change deepest layers = layers.length
  by_cases hne : layers = []
  · rw [hne]
    rfl
  · rw [deepest_of_depths h hne]
    omega

theorem wellFormed_ofLayers (t : Target) (labelAt : Nat → String) {sites : Nat → List Site}
    (hstop : ∀ k, sites k = [] → sites (k + 1) = []) :
    WellFormed depth limit (ofLayers t
      (keepSites limit.toNat (layersFrom labelAt sites 1 depth.toNat))) := by
  have hnonempty : ∀ layer ∈ layersFrom labelAt sites 1 depth.toNat, layer.sites ≠ [] := fun _ =>
    sites_ne_nil_of_mem
  have hlength : (layersFrom labelAt sites 1 depth.toNat).length ≤ depth.toNat :=
    length_layersFrom_le
  have hdepths : (layersFrom labelAt sites 1 depth.toNat).map (·.depth) =
      (List.range' 1 (layersFrom labelAt sites 1 depth.toNat).length).map (↑) :=
      depths_layersFrom hstop
  generalize layersFrom labelAt sites 1 depth.toNat = layers at hnonempty hlength hdepths ⊢
  have hkept := depths_keepSites limit.toNat hnonempty hdepths
  have hle := length_keepSites_le limit.toNat layers
  refine ⟨hkept, fun _ => sites_ne_nil_of_mem_keepSites, ?_, ?_, rfl, ?_,
    summary_depth_ofLayers hkept⟩
  · rw [layers_ofLayers]
    omega
  · rw [layers_ofLayers, flatMap_sites_keepSites, List.length_take]
    omega
  · exact congrArg Nat.cast (distinct_eq_card _)

/-- Every answer of an analysis is well formed. -/
theorem wellFormed_of_analyze
    (h : (analyze tree c target depth limit hint importersOf).value = .ok i) :
    WellFormed depth limit i := by
  obtain ⟨t, labelAt, sites, hstop, hanalyze⟩ :=
    exists_unbounded (hasAnswer_of_analyze h) hint importersOf
  obtain rfl := Except.ok.inj ((hanalyze depth limit).symm.trans h)
  exact wellFormed_ofLayers t labelAt hstop

end Answers

/-- The limit cuts a layer in which two sites lie in one file. -/
theorem wellFormed_of_analyze_cut :
    let c := Corpus.ofPaths "/r" ["a.js", "b.js"]
    ∃ i, (analyze References.sampleTree c "A" 3 2 (fun _ => none) none).value = .ok i ∧
      WellFormed 3 2 i ∧ i.summary = { files := 1, sites := 2, depth := 1 } := by
  intro c
  obtain ⟨i, hi, hsummary⟩ :
      ∃ i, (analyze References.sampleTree c "A" 3 2 (fun _ => none) none).value = .ok i ∧
      i.summary = { files := 1, sites := 2, depth := 1 } := ⟨_, rfl, by decide +kernel⟩
  exact ⟨i, hi, wellFormed_of_analyze hi, hsummary⟩

end CodeAtlas.Impact
