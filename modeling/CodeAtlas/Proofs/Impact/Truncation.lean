import CodeAtlas.Proofs.Impact.Dependents
import CodeAtlas.Proofs.Impact.Importers

/-! # The bounds of an analysis

Behind every target there is one list of sites for each depth, which no bound has a part in. The
bounds on the depth and on the number of sites only say how much of it is shown: the answer under
tighter bounds is the answer under looser ones, cut to the tighter bounds.
-/
namespace CodeAtlas.Impact

/-- The answer cut to a number of layers and then to a number of sites. A bound below zero counts as
zero. -/
def truncate (depth limit : Int) (i : Impact) : Impact :=
  ofLayers i.target (keepSites limit.toNat (i.layers.take depth.toNat))

/-- Whether a target can be analyzed: it is a name, or else a file of the corpus. -/
def HasAnswer (tree : FileTree) (c : Corpus) (target : String) : Prop :=
  isFileTarget target = true → ∃ path ∈ c.paths, c.relativize tree target = .ok path

section Bounds
variable {tree : FileTree} {c : Corpus} {target : String}

/-- An analysis shows a part of sites that do not depend on its bounds. Behind a depth without sites
there is nothing. -/
theorem exists_unbounded (htarget : HasAnswer tree c target) (hint : References.Hint)
    (importersOf : Option (String → List String)) :
    ∃ (t : Target) (labelAt : Nat → String) (sites : Nat → List Site),
      (∀ k, sites k = [] → sites (k + 1) = []) ∧
        ∀ depth limit : Int, (analyze tree c target depth limit hint importersOf).value =
          .ok (ofLayers t (keepSites limit.toNat (layersFrom labelAt sites 1 depth.toNat))) := by
  cases hfile : isFileTarget target with
  | true =>
    obtain ⟨path, hmem, hpath⟩ := htarget hfile
    refine ⟨fileTarget path, (label · "importers"), fileSites (importersIn tree c importersOf) path,
      fileSites_stop _ path, fun depth limit => ?_⟩
    rw [analyze_file hfile hpath hmem, ofFile_eq, fileLayers]
  | false =>
    exact ⟨nameTarget tree c hint target, nameLabel, nameSites tree c hint target,
      nameSites_stop target, fun depth limit => analyze_name hfile depth limit importersOf⟩

/-- Tighter bounds only cut the answer. -/
theorem analyze_eq_truncate (htarget : HasAnswer tree c target) (hint : References.Hint)
    (importersOf : Option (String → List String)) {depth depth' limit limit' : Int}
    (hdepth : depth ≤ depth') (hlimit : limit ≤ limit') :
    ∃ i, (analyze tree c target depth' limit' hint importersOf).value = .ok i ∧
      (analyze tree c target depth limit hint importersOf).value =
        .ok (truncate depth limit i) := by
  obtain ⟨t, labelAt, sites, hstop, hanalyze⟩ := exists_unbounded htarget hint importersOf
  refine ⟨_, hanalyze depth' limit', (hanalyze depth limit).trans (congrArg Except.ok ?_)⟩
  rw [keepSites_layersFrom hstop (Int.toNat_le_toNat hdepth) (Int.toNat_le_toNat hlimit)]
  rfl

end Bounds

/-- Both bounds cut: the second layer goes, and one of the two files of the first. -/
theorem analyze_eq_truncate_circular :
    let c := Corpus.ofPaths "/r" ["a.py", "b.py", "c.py", "d.py"]
    let answer := fun depth limit =>
      (analyze {} c "a.py" depth limit (fun _ => none) (some circularImporters)).value
    HasAnswer {} c "a.py" ∧
      ∃ i, answer 4 3 = .ok i ∧ answer 1 1 = .ok (truncate 1 1 i) ∧
        files i = ["c.py", "b.py", "d.py"] ∧ files (truncate 1 1 i) = ["c.py"] := by
  intro c answer
  have htarget : HasAnswer {} c "a.py" := fun _ => ⟨"a.py", by decide +kernel, by decide +kernel⟩
  obtain ⟨i, hi, hcut⟩ := analyze_eq_truncate htarget (fun _ => none) (some circularImporters)
    (by decide : (1 : Int) ≤ 4) (by decide : (1 : Int) ≤ 3)
  have hfiles : i = ofFile circularImporters "a.py" 4 3 :=
    Except.ok.inj (hi.symm.trans (by decide +kernel))
  refine ⟨htarget, i, hi, hcut, ?_, ?_⟩
  · rw [hfiles]
    decide +kernel
  · rw [hfiles]
    decide +kernel

end CodeAtlas.Impact
