import CodeAtlas.Proofs.Impact.Enclosing
import CodeAtlas.Proofs.Impact.WellFormed

/-! # Circles come to an end

Each layer behind the first one needs a name that no layer before it was about, and these names
are names of symbols of the corpus. So there are no more layers than there are such names,
whatever circles there are among the references, and a bound on the depth that leaves room for
them has no effect.
-/
namespace CodeAtlas.Impact
open Distance References

/-- The names of the symbols of a corpus other than a given one. -/
def otherNames (tree : FileTree) (c : Corpus) (name : String) : Finset String :=
  (c.paths.flatMap fun path => (c.symbols tree path).value.map (·.name)).toFinset.erase name

section Names
variable {tree : FileTree} {c : Corpus} {hint : Hint} {name : String}

theorem mem_otherNames {other : String} : other ∈ otherNames tree c name ↔
    other ≠ name ∧ ∃ path ∈ c.paths, ∃ s ∈ (c.symbols tree path).value, s.name = other := by
  simp [otherNames]

/-- A name leads to names of symbols of the corpus only. -/
theorem exists_symbol_of_mem_leadsTo {other : String} (h : other ∈ leadsTo tree c hint name) :
    ∃ path ∈ c.paths, ∃ s ∈ (c.symbols tree path).value, s.name = other := by
  obtain ⟨m, hm, hother⟩ := List.mem_filterMap.mp h
  obtain ⟨s, hs, rfl⟩ := Option.map_eq_some_iff.mp hother
  exact ⟨m.path, path_mem_of_mem_allReferences tree c hint name hm, s,
    (mem_of_enclosing? hs).1, rfl⟩

theorem reached_subset_otherNames (depth : Nat) :
    (reached (leadsTo tree c hint) name depth).toFinset ⊆ otherNames tree c name := by
  intro other h
  obtain ⟨hne, k, -, hchain⟩ := mem_reached_iff.mp (List.mem_toFinset.mp h)
  refine mem_otherNames.mpr ⟨hne, ?_⟩
  cases hchain with
  | start => exact absurd rfl hne
  | step _ hother => exact exists_symbol_of_mem_leadsTo hother

theorem length_reached_le (depth : Nat) :
    (reached (leadsTo tree c hint) name depth).length ≤ (otherNames tree c name).card := by
  rw [← List.toFinset_card_of_nodup (nodup_reached _ _ _)]
  exact Finset.card_le_card (reached_subset_otherNames depth)

end Names

section Bound
variable {tree : FileTree} {c : Corpus} {hint : Hint} {name : String}

theorem level_ne_nil_of_nameSites {k : Nat} (h : nameSites tree c hint name (k + 1) ≠ []) :
    level (leadsTo tree c hint) name k ≠ [] := by
  intro hlevel
  rw [nameSites, referencesAt_succ, hlevel] at h
  exact h rfl

/-- Layers are numbered without a gap, so that there are names for each level in front of the
last one. -/
theorem length_nameLayers_le (depth : Nat) :
    (nameLayers tree c hint name 1 depth).length ≤ 1 + (otherNames tree c name).card := by
  have hdepths : (nameLayers tree c hint name 1 depth).map (·.depth) =
      (List.range' 1 (nameLayers tree c hint name 1 depth).length).map (↑) :=
    depths_layersFrom (nameSites_stop name)
  have hlevels : ∀ k, 1 ≤ k → k ≤ (nameLayers tree c hint name 1 depth).length - 1 →
      level (leadsTo tree c hint) name k ≠ [] := by
    intro k _ hk
    have hlayer : ((k + 1 : Nat) : Int) ∈ (nameLayers tree c hint name 1 depth).map (·.depth) := by
      rw [hdepths]
      exact List.mem_map_of_mem (List.mem_range'_1.mpr (by omega))
    obtain ⟨layer, hmem, hdepth⟩ := List.mem_map.mp hlayer
    exact level_ne_nil_of_nameSites (exists_depth_layersFrom_iff.mp ⟨layer, hmem, hdepth⟩).2
  have hle := (le_length_reached hlevels).trans (length_reached_le _)
  omega

/-- A bound on the depth beyond the number of layers has no effect. -/
theorem nameLayers_eq_of_le {depth : Nat} (h : 1 + (otherNames tree c name).card ≤ depth) :
    nameLayers tree c hint name 1 depth =
      nameLayers tree c hint name 1 (1 + (otherNames tree c name).card) := by
  rw [nameLayers, nameLayers, ← take_layersFrom (nameSites_stop name) h]
  exact (List.take_of_length_le (length_nameLayers_le depth)).symm

end Bound

/-- The analysis of a name has at most one layer more than there are other names of symbols in the
corpus. Bounds on the depth that leave room for them all lead to the same answer. -/
theorem analyze_name_layers_le {tree : FileTree} {c : Corpus} {target : String}
    (htarget : isFileTarget target = false) (hint : Hint)
    (importersOf : Option (String → List String)) (limit : Int) :
    (∀ depth, ∃ i, (analyze tree c target depth limit hint importersOf).value = .ok i ∧
      i.layers.length ≤ 1 + (otherNames tree c target).card) ∧
    ∀ depth depth' : Int, 1 + (otherNames tree c target).card ≤ depth →
      1 + (otherNames tree c target).card ≤ depth' →
      (analyze tree c target depth limit hint importersOf).value =
        (analyze tree c target depth' limit hint importersOf).value := by
  refine ⟨fun depth => ⟨_, analyze_name htarget depth limit importersOf, ?_⟩,
    fun depth depth' h h' => ?_⟩
  · exact (length_keepSites_le _ _).trans (length_nameLayers_le _)
  · have hlayers :
        nameLayers tree c hint target 1 depth.toNat =
        nameLayers tree c hint target 1 depth'.toNat :=
      (nameLayers_eq_of_le (by omega)).trans (nameLayers_eq_of_le (by omega)).symm
    rw [analyze_name htarget, analyze_name htarget, hlayers]

/-- Two functions that call each other: one layer for the target and one for the only other name,
however deep the analysis may go. -/
theorem analyze_name_layers_le_mutual :
    let c := Corpus.ofPaths "/r" ["a.py", "b.py"]
    let answer := fun depth => (analyze mutualTree c "A" depth 100 (fun _ => none) none).value
    isFileTarget "A" = false ∧ otherNames mutualTree c "A" = {"B"} ∧ answer 1000000 = answer 2 ∧
      ∃ i, answer 1000000 = .ok i ∧ i.layers.length = 2 := by
  intro c answer
  have htarget : isFileTarget "A" = false := by decide
  have hnames : otherNames mutualTree c "A" = {"B"} := by decide +kernel
  obtain ⟨-, hdeep⟩ := analyze_name_layers_le htarget (fun _ => none) none 100
  have hsame : answer 1000000 = answer 2 := by
    refine hdeep 1000000 2 ?_ ?_ <;> (rw [hnames]; decide)
  obtain ⟨i, hi, hlength⟩ : ∃ i, answer 2 = .ok i ∧ i.layers.length = 2 :=
    ⟨_, rfl, by decide +kernel⟩
  exact ⟨htarget, hnames, hsame, i, hsame.trans hi, hlength⟩

end CodeAtlas.Impact
