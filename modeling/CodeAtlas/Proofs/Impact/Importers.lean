import CodeAtlas.Proofs.Distance
import CodeAtlas.Proofs.Impact.Layers

/-! # The impact of a file

What depends on a file is found from importers to importers. Without bounds the layers are the
levels of a breadth-first search, so that the depth of a file is the length of a shortest chain of
imports. A limit on the number of files cuts the list of all layers.
-/
namespace CodeAtlas.Impact
open Distance

/-- The files at a distance from the target, as sites. -/
def fileSites (importersOf : String → List String) (path : String) (k : Nat) : List Site :=
  (level importersOf path k).map fun file => { file }

/-- The layers of importers without a limit on the number of files. -/
def fileLayers (importersOf : String → List String) (path : String) (start count : Nat) :
    List Layer :=
  layersFrom (label · "importers") (fileSites importersOf path) start count

/-- The target for a file: no bound has a part in it. -/
def fileTarget (path : String) : Target :=
  { name := Path.fileName path, file := path, kind := "file" }

/-! ## The loop -/

section Loop
variable (importersOf : String → List String) (path : String)

theorem newFiles_eq_take (limit : Nat) (visited importers : List String) :
    newFiles limit visited importers = (fresh visited importers).take limit := by
  induction importers generalizing limit visited with
  | nil => simp [newFiles, fresh]
  | cons file rest ih =>
    cases limit with
    | zero => rfl
    | succ limit =>
      by_cases hfile : file ∈ visited
      · rw [fresh, if_pos hfile, newFiles, if_pos (List.contains_iff_mem.mpr hfile), ih]
      · rw [fresh, if_neg hfile, newFiles, if_neg fun h => hfile (List.contains_iff_mem.mp h), ih,
          List.take_succ_cons]

theorem importerLayers_no_limit (more depth : Nat) (visited frontier : List String) :
    importerLayers importersOf more depth 0 visited frontier = [] := by
  cases more with
  | zero => rfl
  | succ more => simp [importerLayers, newFiles_eq_take]

@[simp] theorem map_file_fileSites (k : Nat) :
    (fileSites importersOf path k).map (·.file) = level importersOf path k := by
  rw [fileSites, List.map_map]
  exact List.map_id _

theorem fileSites_stop (k : Nat) (h : fileSites importersOf path k = []) :
    fileSites importersOf path (k + 1) = [] := by
  rw [fileSites, List.map_eq_nil_iff] at h ⊢
  exact level_succ_eq_nil h

/-- The loop goes from level to level. As long as the limit is not reached the frontier is a whole
level, and everything up to it has been visited. -/
theorem importerLayers_eq (more k limit : Nat) :
    importerLayers importersOf more (k + 1) limit (seen importersOf path k)
      (level importersOf path k) = keepSites limit (fileLayers importersOf path (k + 1) more) := by
  induction more generalizing k limit with
  | zero => rfl
  | succ more ih =>
    have hfiles :
        newFiles limit (seen importersOf path k) ((level importersOf path k).flatMap importersOf) =
        (level importersOf path (k + 1)).take limit := newFiles_eq_take _ _ _
    by_cases hlimit : limit = 0
    · rw [hlimit, importerLayers_no_limit, keepSites_zero]
    · by_cases hlevel : level importersOf path (k + 1) = []
      · have hsites : fileSites importersOf path (k + 1) = [] := by
          rw [fileSites, hlevel, List.map_nil]
        rw [importerLayers, hfiles, hlevel, List.take_nil, fileLayers,
          layersFrom_eq_nil (fileSites_stop importersOf path) hsites]
        rfl
      · have hsites : fileSites importersOf path (k + 1) ≠ [] := by
          simpa [fileSites] using hlevel
        rw [importerLayers, hfiles, if_neg (by simpa using take_ne_nil hlimit hlevel),
          List.map_take]
        refine cons_eq_keepSites (label · "importers") hlimit hsites (fun hle => ?_) (fun hlt => ?_)
        · rw [fileSites, List.length_map] at hle ⊢
          rw [List.take_of_length_le hle, ← seen_succ]
          exact ih (k + 1) _
        · rw [fileSites, List.length_map] at hlt
          rw [List.length_take_of_le (Nat.le_of_lt hlt), Nat.sub_self, importerLayers_no_limit]

theorem ofFile_eq (depth limit : Nat) :
    ofFile importersOf path depth limit =
      ofLayers (fileTarget path) (keepSites limit (fileLayers importersOf path 1 depth)) :=
  congrArg (ofLayers _) (importerLayers_eq importersOf path depth 0 limit)

theorem flatMap_sites_fileLayers (depth : Nat) :
    ((fileLayers importersOf path 1 depth).flatMap (·.sites)).map (·.file) =
      reached importersOf path depth := by
  rw [fileLayers, flatMap_sites_layersFrom, List.map_flatMap, reached]
  simp only [map_file_fileSites]

end Loop

/-! ## The analysis -/

/-- The importers that an analysis goes by: those that are given, else those of the corpus. -/
def importersIn (tree : FileTree) (c : Corpus) (importersOf : Option (String → List String)) :
    String → List String :=
  importersOf.getD (ImportGraph.build tree c).value.importersOf

theorem analyze_file {tree : FileTree} {c : Corpus} {target path : String}
    (htarget : isFileTarget target = true) (hpath : c.relativize tree target = .ok path)
    (hmem : path ∈ c.paths) (depth limit : Int) (hint : References.Hint)
    (importersOf : Option (String → List String)) :
    (analyze tree c target depth limit hint importersOf).value =
      .ok (ofFile (importersIn tree c importersOf) path depth.toNat limit.toNat) := by
  unfold analyze
  simp only [htarget, if_true, hpath, List.contains_iff_mem.mpr hmem, Bool.not_true,
    Bool.false_eq_true, if_false]
  by_cases hdepth : depth < 1
  · have hzero : depth.toNat = 0 := by omega
    simp only [hdepth, if_true, hzero]
    rfl
  · simp only [hdepth, if_false]
    cases importersOf <;> rfl

/-- The files of a layer, in order. -/
def filesAt (i : Impact) (k : Nat) : List String := (sitesAt i.layers k).map (·.file)

/-- The files of all layers, in order. -/
def files (i : Impact) : List String := (i.layers.flatMap (·.sites)).map (·.file)

/-- The files that the layer before a depth leads to, in order and with repetitions. In front of the
first layer there is the target alone. -/
def discovered (importersOf : String → List String) (path : String) (i : Impact) (k : Nat) :
    List String :=
  (if k = 1 then [path] else filesAt i (k - 1)).flatMap importersOf

section Unbounded
variable {importersOf : String → List String} {path : String} {depth : Nat}

theorem layers_ofFile_of_le {limit : Nat} (h : (reached importersOf path depth).length ≤ limit) :
    (ofFile importersOf path depth limit).layers = fileLayers importersOf path 1 depth := by
  have hsites : ∀ layer ∈ fileLayers importersOf path 1 depth, layer.sites ≠ [] := fun _ =>
    sites_ne_nil_of_mem
  rw [ofFile_eq, ofLayers, keepSites_eq_self hsites]
  rwa [← List.length_map (·.file), flatMap_sites_fileLayers]

variable {i : Impact} (hlayers : i.layers = fileLayers importersOf path 1 depth)
include hlayers

theorem files_eq_reached : files i = reached importersOf path depth := by
  rw [files, hlayers, flatMap_sites_fileLayers]

theorem filesAt_eq_level {k : Nat} (hpos : 1 ≤ k) (hk : k ≤ depth) :
    filesAt i k = level importersOf path k := by
  rw [filesAt, hlayers, fileLayers, sitesAt_layersFrom, if_pos (by omega), map_file_fileSites]

theorem discovered_eq {k : Nat} (hk : k + 1 ≤ depth) :
    discovered importersOf path i (k + 1) = (level importersOf path k).flatMap importersOf := by
  cases k with
  | zero => rfl
  | succ k =>
    rw [discovered, if_neg (by omega), Nat.add_sub_cancel,
      filesAt_eq_level hlayers (Nat.succ_pos k) (Nat.le_of_succ_le hk)]

end Unbounded

/-- The depth of a file is the length of a shortest chain of imports from the target to it, as long
as the limit leaves room for all files that such chains lead to. -/
theorem analyze_file_distance {tree : FileTree} {c : Corpus} {target path : String}
    {importersOf : Option (String → List String)} {depth limit : Int} (hint : References.Hint)
    (htarget : isFileTarget target = true) (hpath : c.relativize tree target = .ok path)
    (hmem : path ∈ c.paths)
    (hlimit : {file | file ≠ path ∧
      ∃ k ≤ depth.toNat, Chain (importersIn tree c importersOf) path k file}.ncard ≤ limit) :
    ∃ i, (analyze tree c target depth limit hint importersOf).value = .ok i ∧
      (∀ k file, 1 ≤ k → k ≤ depth.toNat →
        (file ∈ filesAt i k ↔ IsDistance (importersIn tree c importersOf) path k file)) ∧
      (∀ file, file ∈ files i ↔
        ∃ k, 1 ≤ k ∧ k ≤ depth.toNat ∧ IsDistance (importersIn tree c importersOf) path k file) ∧
      (files i).Nodup ∧ path ∉ files i ∧
      ∀ k, 1 ≤ k → k ≤ depth.toNat → (filesAt i k).Pairwise fun a b =>
        (discovered (importersIn tree c importersOf) path i k).idxOf a <
          (discovered (importersIn tree c importersOf) path i k).idxOf b := by
  have hanalyze := analyze_file htarget hpath hmem depth limit hint importersOf
  generalize importersIn tree c importersOf = next at hlimit hanalyze ⊢
  rw [ncard_within] at hlimit
  have hlayers :
      (ofFile next path depth.toNat limit.toNat).layers = fileLayers next path 1 depth.toNat :=
    layers_ofFile_of_le (by omega)
  have hfiles := files_eq_reached hlayers
  refine ⟨_, hanalyze, ?_, ?_, ?_, ?_, ?_⟩
  · intro k file hpos hk
    rw [filesAt_eq_level hlayers hpos hk, mem_level_iff]
  · intro file
    simp only [hfiles, reached, List.mem_flatMap, List.mem_range'_1, mem_level_iff, and_assoc]
    refine exists_congr fun k => and_congr_right fun _ => and_congr_left fun _ => ?_
    omega
  · rw [hfiles]
    exact nodup_reached next path depth.toNat
  · rw [hfiles, mem_reached_iff]
    exact fun h => h.1 rfl
  · intro k hpos hk
    obtain ⟨k, rfl⟩ := Nat.exists_eq_add_of_le' hpos
    rw [filesAt_eq_level hlayers hpos hk, discovered_eq hlayers hk]
    exact (isBreadthFirst_level next path).first_discovery k

/-- Files that import each other and themselves, some of them more than once. -/
def circularImporters : String → List String
  | "a.py" => ["a.py", "c.py", "b.py", "c.py"]
  | "b.py" => ["a.py", "c.py", "d.py"]
  | _ => ["a.py", "b.py"]

/-- The limit is as low as it may be. Only `b.py` leads to `d.py`, and it is found behind `c.py`. -/
theorem analyze_file_distance_circular :
    let c := Corpus.ofPaths "/r" ["a.py", "b.py", "c.py", "d.py"]
    let next := importersIn {} c (some circularImporters)
    isFileTarget "a.py" = true ∧ c.relativize {} "a.py" = .ok "a.py" ∧ "a.py" ∈ c.paths ∧
      {file | file ≠ "a.py" ∧ ∃ k ≤ 4, Chain next "a.py" k file}.ncard = 3 ∧
      ∃ i, (analyze {} c "a.py" 4 3 (fun _ => none) (some circularImporters)).value = .ok i ∧
        (files i).Nodup ∧ "a.py" ∉ files i ∧
        ("c.py" ∈ filesAt i 1 ∧ IsDistance next "a.py" 1 "c.py") ∧
        ("d.py" ∈ filesAt i 2 ∧ IsDistance next "a.py" 2 "d.py") := by
  intro c next
  have hpath : c.relativize {} "a.py" = .ok "a.py" := by decide +kernel
  have hmem : "a.py" ∈ c.paths := by decide +kernel
  have hcard : {file | file ≠ "a.py" ∧ ∃ k ≤ 4, Chain next "a.py" k file}.ncard = 3 := by
    rw [ncard_within]
    decide +kernel
  have hlimit :
      {file | file ≠ "a.py" ∧ ∃ k ≤ (4 : Int).toNat, Chain next "a.py" k file}.ncard ≤ (3 : Int) :=
    Int.ofNat_le.mpr (Nat.le_of_eq hcard)
  have hc : IsDistance next "a.py" 1 "c.py" := mem_level_iff.mp (by decide +kernel)
  have hd : IsDistance next "a.py" 2 "d.py" := mem_level_iff.mp (by decide +kernel)
  obtain ⟨i, hi, hdistance, -, hnodup, htarget, -⟩ :=
    analyze_file_distance (fun _ => none) (by decide) hpath hmem hlimit
  exact ⟨by decide, hpath, hmem, hcard, i, hi, hnodup, htarget,
    ⟨(hdistance 1 _ (by decide) (by decide)).mpr hc, hc⟩,
      (hdistance 2 _ (by decide) (by decide)).mpr hd, hd⟩

end CodeAtlas.Impact
