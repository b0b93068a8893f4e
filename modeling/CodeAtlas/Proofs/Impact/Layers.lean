import CodeAtlas.Impact.Analysis
import Mathlib.Data.List.Basic

/-! # Layers and their bounds

An analysis without bounds is a list of sites for every depth. `layersFrom` makes layers of them for
so many depths, and `keepSites` cuts layers to a number of sites. The lemmas say how the two go
together: cutting twice is cutting once, and layers may be dropped before or after sites are.
-/
namespace CodeAtlas.Impact

/-- The first sites of layers, counted across the layers in order. Layers that are left empty are
dropped. -/
def keepSites : (limit : Nat) → List Layer → List Layer
  | _, [] => []
  | limit, layer :: rest =>
    let sites := layer.sites.take limit
    let others := keepSites (limit - layer.sites.length) rest
    if sites.isEmpty then others else { layer with sites } :: others

/-- The layers for so many depths from `start` on; where there are no sites there is no layer. -/
def layersFrom (labelAt : Nat → String) (sites : Nat → List Site) (start count : Nat) :
    List Layer :=
  ((List.range' start count).map fun k =>
    { depth := k, label := labelAt k, sites := sites k }).filter (!·.sites.isEmpty)

/-- The sites of the layer with the given depth. -/
def sitesAt (layers : List Layer) (k : Nat) : List Site :=
  (layers.filter fun layer => layer.depth = (k : Int)).flatMap (·.sites)

/-! ## Keeping sites -/

theorem take_ne_nil {α : Type} {xs : List α} {limit : Nat} (hlimit : limit ≠ 0) (hxs : xs ≠ []) :
    xs.take limit ≠ [] :=
  fun h => (List.take_eq_nil_iff.mp h).elim hlimit hxs

theorem keepSites_zero (layers : List Layer) : keepSites 0 layers = [] := by
  induction layers with
  | nil => rfl
  | cons layer rest ih => simpa [keepSites] using ih

theorem keepSites_cons {limit : Nat} {layer : Layer} (hlimit : limit ≠ 0)
    (hsites : layer.sites ≠ []) (rest : List Layer) :
    keepSites limit (layer :: rest) = { layer with sites := layer.sites.take limit } ::
      keepSites (limit - layer.sites.length) rest := by
  have hkept : (layer.sites.take limit).isEmpty = false := by
    simpa using take_ne_nil hlimit hsites
  simp [keepSites, hkept]

theorem keepSites_cons_of_nil {limit : Nat} {layer : Layer} (hsites : layer.sites = [])
    (rest : List Layer) : keepSites limit (layer :: rest) = keepSites limit rest := by
  simp [keepSites, hsites]

/-- A limit that is not reached keeps everything. -/
theorem keepSites_eq_self {layers : List Layer} (hsites : ∀ layer ∈ layers, layer.sites ≠ [])
    {limit : Nat} (hlimit : (layers.flatMap (·.sites)).length ≤ limit) :
    keepSites limit layers = layers := by
  induction layers generalizing limit with
  | nil => rfl
  | cons layer rest ih =>
    obtain ⟨hlayer, hrest⟩ := List.forall_mem_cons.mp hsites
    rw [List.flatMap_cons, List.length_append] at hlimit
    have hpos : 0 < layer.sites.length := List.length_pos_iff.mpr hlayer
    rw [keepSites_cons (by omega) hlayer, List.take_of_length_le (by omega), ih hrest (by omega)]

/-- Cutting to more sites before cutting to fewer of them makes no difference. -/
theorem keepSites_keepSites {m n : Nat} (h : m ≤ n) (layers : List Layer) :
    keepSites m (keepSites n layers) = keepSites m layers := by
  induction layers generalizing m n with
  | nil => rfl
  | cons layer rest ih =>
    by_cases hsites : layer.sites = []
    · rw [keepSites_cons_of_nil hsites, keepSites_cons_of_nil hsites, ih h]
    · by_cases hm : m = 0
      · rw [hm, keepSites_zero, keepSites_zero]
      · have hn : n ≠ 0 := by omega
        rw [keepSites_cons hn hsites, keepSites_cons hm (take_ne_nil hn hsites),
          keepSites_cons hm hsites]
        simp only [List.take_take, Nat.min_eq_left h, List.length_take]
        -- the sites that are left for the rest are the same in number, or there are none
        by_cases hle : layer.sites.length ≤ n
        · rw [Nat.min_eq_right hle, ih (by omega)]
        · have hfull : m - min n layer.sites.length = 0 := by omega
          have hfull' : m - layer.sites.length = 0 := by omega
          rw [hfull, hfull', keepSites_zero, keepSites_zero]

/-- Layers may be dropped before or after sites are. -/
theorem take_keepSites {layers : List Layer} (hsites : ∀ layer ∈ layers, layer.sites ≠ [])
    (limit count : Nat) :
    (keepSites limit layers).take count = keepSites limit (layers.take count) := by
  induction layers generalizing limit count with
  | nil => simp [keepSites]
  | cons layer rest ih =>
    obtain ⟨hlayer, hrest⟩ := List.forall_mem_cons.mp hsites
    by_cases hlimit : limit = 0
    · rw [hlimit, keepSites_zero, keepSites_zero, List.take_nil]
    · cases count with
      | zero => rfl
      | succ count =>
        rw [keepSites_cons hlimit hlayer, List.take_succ_cons, List.take_succ_cons,
          keepSites_cons hlimit hlayer, ih hrest]

/-! ## Layers from depth to depth -/

section Depths
variable {labelAt : Nat → String} {sites : Nat → List Site} {start count : Nat}

theorem sites_ne_nil_of_mem {layer : Layer} (h : layer ∈ layersFrom labelAt sites start count) :
    layer.sites ≠ [] := by
  simpa using (List.mem_filter.mp h).2

theorem layersFrom_succ (h : sites start ≠ []) :
    layersFrom labelAt sites start (count + 1) =
      { depth := start, label := labelAt start, sites := sites start } ::
        layersFrom labelAt sites (start + 1) count := by
  simp [layersFrom, List.range'_succ, h]

theorem layersFrom_succ_of_nil (h : sites start = []) :
    layersFrom labelAt sites start (count + 1) = layersFrom labelAt sites (start + 1) count := by
  simp [layersFrom, List.range'_succ, h]

theorem sitesAt_layersFrom (k : Nat) :
    sitesAt (layersFrom labelAt sites start count) k =
      if start ≤ k ∧ k < start + count then sites k else [] := by
  induction count generalizing start with
  | zero =>
    rw [if_neg (by omega)]
    rfl
  | succ count ih =>
    by_cases hk : k = start
    · subst hk
      have hlater : sitesAt (layersFrom labelAt sites (k + 1) count) k = [] := by
        rw [ih, if_neg (by omega)]
      rw [if_pos (by omega)]
      by_cases h : sites k = []
      · rw [layersFrom_succ_of_nil h, hlater, h]
      · rw [layersFrom_succ h, sitesAt, List.filter_cons_of_pos (by simp), List.flatMap_cons]
        exact (congrArg (sites k ++ ·) hlater).trans (List.append_nil _)
    · have hrange :
          (start + 1 ≤ k ∧ k < start + 1 + count) ↔ (start ≤ k ∧ k < start + (count + 1)) := by
        omega
      by_cases h : sites start = []
      · rw [layersFrom_succ_of_nil h, ih, if_congr hrange rfl rfl]
      · rw [layersFrom_succ h, sitesAt, List.filter_cons_of_neg
          (by simp only [decide_eq_true_eq]; omega)]
        exact ih.trans (if_congr hrange rfl rfl)

theorem exists_depth_layersFrom_iff {k : Nat} :
    (∃ layer ∈ layersFrom labelAt sites start count, layer.depth = (k : Int)) ↔
      (start ≤ k ∧ k < start + count) ∧ sites k ≠ [] := by
  constructor
  · rintro ⟨layer, hlayer, hdepth⟩
    have hsites := sites_ne_nil_of_mem hlayer
    obtain ⟨j, hj, rfl⟩ := List.mem_map.mp (List.mem_filter.mp hlayer).1
    obtain rfl : j = k := Int.ofNat_inj.mp hdepth
    exact ⟨List.mem_range'_1.mp hj, hsites⟩
  · rintro ⟨hk, hsites⟩
    refine ⟨_, List.mem_filter.mpr ⟨List.mem_map.mpr ⟨k, List.mem_range'_1.mpr hk, rfl⟩, ?_⟩, rfl⟩
    simpa using hsites

theorem flatMap_sites_layersFrom :
    (layersFrom labelAt sites start count).flatMap (·.sites) =
      (List.range' start count).flatMap sites := by
  induction count generalizing start with
  | zero => rfl
  | succ count ih =>
    rw [List.range'_succ, List.flatMap_cons, ← ih]
    by_cases h : sites start = []
    · rw [layersFrom_succ_of_nil h, h, List.nil_append]
    · rw [layersFrom_succ h, List.flatMap_cons]

theorem layersFrom_eq_nil (hstop : ∀ k, sites k = [] → sites (k + 1) = []) (h : sites start = []) :
    layersFrom labelAt sites start count = [] := by
  have hnil {k : Nat} (hk : start ≤ k) : sites k = [] := by
    induction hk with
    | refl => exact h
    | step _ ih => exact hstop _ ih
  refine List.filter_eq_nil_iff.mpr fun layer hlayer => ?_
  obtain ⟨k, hk, rfl⟩ := List.mem_map.mp hlayer
  simp [hnil (List.mem_range'_1.mp hk).1]

/-- One round of a loop that cuts as it goes: it puts a layer in front of the `rest`, which is what
a whole layer leads to, or nothing if the layer takes up the limit. -/
theorem cons_eq_keepSites (labelAt : Nat → String) {limit : Nat} {rest : List Layer}
    (hlimit : limit ≠ 0) (hsites : sites start ≠ [])
    (hwhole : (sites start).length ≤ limit →
      rest = keepSites (limit - (sites start).length) (layersFrom labelAt sites (start + 1) count))
    (hcut : limit < (sites start).length → rest = []) :
    { depth := start, label := labelAt start, sites := (sites start).take limit } :: rest =
      keepSites limit (layersFrom labelAt sites start (count + 1)) := by
  rw [layersFrom_succ hsites, keepSites_cons hlimit hsites]
  rcases Nat.lt_or_ge limit (sites start).length with hlt | hle
  · rw [hcut hlt, Nat.sub_eq_zero_of_le (Nat.le_of_lt hlt), keepSites_zero]
  · rw [hwhole hle]

/-- If there is nothing behind a depth without sites, a bound on the depth cuts the list
of layers. -/
theorem take_layersFrom (hstop : ∀ k, sites k = [] → sites (k + 1) = []) {fewer : Nat}
    (h : fewer ≤ count) :
    (layersFrom labelAt sites start count).take fewer = layersFrom labelAt sites start fewer := by
  induction fewer generalizing start count with
  | zero => rfl
  | succ fewer ih =>
    by_cases hsites : sites start = []
    · rw [layersFrom_eq_nil hstop hsites, layersFrom_eq_nil hstop hsites, List.take_nil]
    · obtain ⟨count, rfl⟩ := Nat.exists_eq_add_of_le' (Nat.one_le_of_lt h)
      rw [layersFrom_succ hsites, layersFrom_succ hsites, List.take_succ_cons,
        ih (Nat.le_of_succ_le_succ h)]

/-- Layers under tighter bounds are layers under looser bounds, cut to the tighter ones. -/
theorem keepSites_layersFrom (hstop : ∀ k, sites k = [] → sites (k + 1) = [])
    {fewer limit limit' : Nat} (hcount : fewer ≤ count) (hlimit : limit ≤ limit') :
    keepSites limit (layersFrom labelAt sites start fewer) =
      keepSites limit ((keepSites limit' (layersFrom labelAt sites start count)).take fewer) := by
  rw [take_keepSites fun _ => sites_ne_nil_of_mem, take_layersFrom hstop hcount,
    keepSites_keepSites hlimit]

end Depths

end CodeAtlas.Impact
