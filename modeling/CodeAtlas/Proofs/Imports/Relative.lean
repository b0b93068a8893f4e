import CodeAtlas.Imports.Python
import CodeAtlas.Proofs.Text.Lines

/-! # Relative imports

A relative import abbreviates an absolute one: each dot beyond the first goes up one package from
that of the importing file, whether the file is an ordinary module or a package's own file.
-/
namespace CodeAtlas
open Text

/-! ## Names in paths -/

namespace Path

/-- A name that is one component of a path and one part of a dotted name. -/
structure IsName (name : String) : Prop where
  ne_empty : name ≠ ""
  plain : ∀ c ∈ name.toList, c ≠ '/' ∧ c ≠ '\\' ∧ c ≠ '.'

instance (name : String) : Decidable (IsName name) :=
  decidable_of_iff (name ≠ "" ∧ (name.toList.all fun c => c != '/' && c != '\\' && c != '.') = true)
    ⟨fun h => ⟨h.1, by simpa [and_assoc] using h.2⟩,
      fun h => ⟨h.ne_empty, by simpa [and_assoc] using h.plain⟩⟩

/-- The last dot of a file name parts its stem from its suffix. -/
theorem stem_of_fileName {p name tail : String} (h : fileName p = name ++ "." ++ tail)
    (hname : name ≠ "") (htail : tail ≠ "") (hdot : '.' ∉ tail.toList) : stem p = name := by
  have hlist : (fileName p).toList = name.toList ++ '.' :: tail.toList := by simp [h]
  have hbehind : ((fileName p).toList.reverse.takeWhile (· != '.')).reverse = tail.toList := by
    have hplain : ∀ c ∈ tail.toList.reverse, (c != '.') = true := by
      intro c hc
      simpa using fun hc' : c = '.' => hdot (hc' ▸ List.mem_reverse.mp hc)
    rw [hlist, List.reverse_append, List.reverse_cons, List.append_assoc,
      List.takeWhile_append_of_pos hplain]
    simp
  have hlength : (fileName p).toList.length = name.toList.length + (tail.toList.length + 1) := by
    rw [hlist, List.length_append, List.length_cons]
  have hbefore :
      (fileName p).toList.take ((fileName p).toList.length - tail.toList.length - 1) =
      name.toList := by
    rw [hlength, hlist]
    exact List.take_left' (by omega)
  have hne : tail.toList.length ≠ (fileName p).toList.length := by omega
  simp only [stem, stemAndSuffix, hbehind, hbefore]
  simp [hne, hname, htail]

end Path

namespace Imports.Python
open CodeAtlas.Python CodeAtlas.Path

/-- Dots take parts off the end of a dotted name, as long as some part is left. -/
theorem absoluteModule_intercalate {names : List String} (h : ∀ part ∈ names, '.' ∉ part.toList)
    {level : Nat} (hlevel : level < names.length) (module : String) :
    absoluteModule (".".intercalate names) module level =
      ".".intercalate (names.take (names.length - level) ++
        if module.isEmpty then [] else [module]) := by
  have hne : names ≠ [] := List.ne_nil_of_length_pos (by omega)
  have hbase : names.take (names.length - level) ≠ [] :=
    List.ne_nil_of_length_pos (by rw [List.length_take]; omega)
  have hsplit : splitOn '.' (".".intercalate names).toList = names.map String.toList :=
    splitOn_toList_intercalate rfl hne h
  simp only [absoluteModule, hsplit, List.length_map]
  rw [if_neg (by omega), Int.toNat_sub, ← List.map_take, List.map_map]
  by_cases hmodule : module.isEmpty
  · simp [hmodule, hbase]
  · simp [hmodule]

/-- A Python file whose path is made of names. -/
structure ModuleFile where
  directories : List String
  name : String
  suffix : String
  isName_directories : ∀ part ∈ directories, IsName part
  isName_name : IsName name
  suffix_mem : suffix ∈ suffixes

namespace ModuleFile
variable (f : ModuleFile)

/-- The components of the path. -/
def parts : List String := f.directories ++ [f.name ++ f.suffix]

/-- The path of a file. -/
def path : String := ofPieces f.parts

/-- The packages that a file lies in, outermost first. -/
def package : List String :=
  match f.directories with
  | "src" :: rest => rest
  | directories => directories

/-- The absolute name of a module that is imported by some dots and a name. One dot means the
innermost package, and each further one the package around it. -/
def absolute (level : Nat) (module : String) : String :=
  ".".intercalate (f.package.take (f.package.length - level + 1) ++
    if module.isEmpty then [] else [module])

theorem suffix_eq : f.suffix = ".py" ∨ f.suffix = ".pyi" := by simpa [suffixes] using f.suffix_mem

theorem exists_suffix_eq : ∃ tail, f.suffix = "." ++ tail ∧ IsName tail := by
  rcases f.suffix_eq with hsuffix | hsuffix
  · exact ⟨"py", hsuffix, by decide⟩
  · exact ⟨"pyi", hsuffix, by decide⟩

theorem plain_of_mem_parts {part : String} (h : part ∈ f.parts) :
    part ≠ "" ∧ part ≠ "." ∧ '/' ∉ part.toList ∧ '\\' ∉ part.toList := by
  rcases List.mem_append.mp h with h | h
  · have hname := f.isName_directories part h
    refine ⟨hname.ne_empty, ?_, fun hc => (hname.plain _ hc).1 rfl,
      fun hc => (hname.plain _ hc).2.1 rfl⟩
    rintro rfl
    exact (hname.plain '.' (by decide)).2.2 rfl
  · obtain rfl := List.mem_singleton.mp h
    obtain ⟨tail, hsuffix, htail⟩ := f.exists_suffix_eq
    have hlist : (f.name ++ f.suffix).toList = f.name.toList ++ '.' :: tail.toList := by
      simp [hsuffix]
    have hplain (c : Char) (hc : c ∈ (f.name ++ f.suffix).toList) : c ≠ '/' ∧ c ≠ '\\' := by
      rw [hlist, List.mem_append, List.mem_cons] at hc
      rcases hc with hc | rfl | hc
      · exact ⟨(f.isName_name.plain c hc).1, (f.isName_name.plain c hc).2.1⟩
      · decide
      · exact ⟨(htail.plain c hc).1, (htail.plain c hc).2.1⟩
    refine ⟨?_, ?_, fun hc => (hplain _ hc).1 rfl, fun hc => (hplain _ hc).2 rfl⟩
    · simp [f.isName_name.ne_empty]
    · intro hdot
      have hlength := congrArg List.length (hlist.symm.trans (congrArg String.toList hdot))
      have hname : 0 < f.name.toList.length :=
        List.length_pos_iff.mpr (by simpa using f.isName_name.ne_empty)
      simp at hlength
      omega

theorem splitOn_path : splitOn '/' f.path.toList = f.parts.map String.toList :=
  splitOn_toList_intercalate rfl (by simp [parts]) fun part hpart =>
    (f.plain_of_mem_parts hpart).2.2.1

theorem components_path : components f.path = f.parts := by
  have hpieces : pieces f.path = f.parts := by simp [pieces, splitOn_path]
  rw [components, hpieces, List.filter_eq_self]
  intro part hpart
  simp [f.plain_of_mem_parts hpart]

theorem stem_path : stem f.path = f.name := by
  obtain ⟨tail, hsuffix, htail⟩ := f.exists_suffix_eq
  refine stem_of_fileName ?_ f.isName_name.ne_empty htail.ne_empty fun hc =>
    (htail.plain _ hc).2.2 rfl
  rw [fileName, components_path, parts, List.getLast?_concat, Option.getD_some, hsuffix,
    String.append_assoc]

theorem backslash_not_mem_path : '\\' ∉ f.path.toList := by
  rw [path, ofPieces, String.toList_intercalate]
  intro h
  rcases mem_or_of_mem_intercalate h with h | ⟨piece, hpiece, h⟩
  · exact absurd h (by decide)
  · obtain ⟨part, hpart, rfl⟩ := List.mem_map.mp hpiece
    exact (f.plain_of_mem_parts hpart).2.2.2 h

theorem cut_suffix : (if endsWith ".py" (f.name ++ f.suffix).toList then
      (f.name ++ f.suffix).toList.take ((f.name ++ f.suffix).toList.length - 3)
    else if endsWith ".pyi" (f.name ++ f.suffix).toList then
      (f.name ++ f.suffix).toList.take ((f.name ++ f.suffix).toList.length - 4)
    else (f.name ++ f.suffix).toList) = f.name.toList := by
  rcases f.suffix_eq with hsuffix | hsuffix
  · simp [hsuffix, endsWith, after?]
  · simp [hsuffix, endsWith, after?]

theorem package_of_source {c : String} {rest : List String} (h : f.parts = "src" :: c :: rest) :
    c :: rest = f.package ++ [f.name ++ f.suffix] := by
  unfold parts at h
  unfold package
  cases hdirs : f.directories with
  | nil => simp [hdirs] at h
  | cons first directories =>
    rw [hdirs, List.cons_append, List.cons.injEq] at h
    obtain ⟨rfl, h⟩ := h
    exact h.symm

theorem package_of_not_source (h : ∀ c rest, f.parts ≠ "src" :: c :: rest) :
    f.parts = f.package ++ [f.name ++ f.suffix] := by
  unfold parts at h ⊢
  unfold package
  split
  next rest hdirs =>
    obtain ⟨c, behind, hrest⟩ :=
      List.exists_cons_of_ne_nil (List.concat_ne_nil (f.name ++ f.suffix) rest)
    exact absurd (by rw [hdirs, List.cons_append, hrest]) (h c behind)
  next => rfl

theorem moduleName_path :
    moduleName f.path = ".".intercalate
      (if f.name = "__init__" then f.package else f.package ++ [f.name]) := by
  have hslashed : (f.path.toList.map fun c => if c = '\\' then '/' else c) = f.path.toList := by
    refine (List.map_congr_left fun c hc => if_neg ?_).trans (List.map_id' _)
    rintro rfl
    exact f.backslash_not_mem_path hc
  have hparts : ((splitOn '/' f.path.toList).filter (!·.isEmpty)).map String.ofList = f.parts := by
    have hne : ∀ piece ∈ f.parts.map String.toList, (!piece.isEmpty) = true := by
      intro piece hpiece
      obtain ⟨part, hpart, rfl⟩ := List.mem_map.mp hpiece
      simpa using (f.plain_of_mem_parts hpart).1
    rw [splitOn_path, List.filter_eq_self.mpr hne, List.map_map]
    simp
  unfold moduleName
  simp only [hslashed, hparts]
  -- some part is left of every path, since `src` is left out only in front of another part
  split
  next hnil =>
    split at hnil
    · simp at hnil
    · simp [parts] at hnil
  next last before hlast =>
    have hends : last = f.name ++ f.suffix ∧ before = f.package.reverse := by
      split at hlast
      next hsource => simpa [f.package_of_source hsource, eq_comm] using hlast
      next hsource => simpa [f.package_of_not_source hsource, eq_comm] using hlast
    obtain ⟨rfl, rfl⟩ := hends
    rw [cut_suffix, String.ofList_toList]
    by_cases hinit : f.name = "__init__"
    · simp [hinit]
    · simp [hinit]

theorem isName_of_mem_package {part : String} (h : part ∈ f.package) : IsName part := by
  unfold package at h
  split at h
  next rest hdirs => exact f.isName_directories part (by simp [hdirs, h])
  next => exact f.isName_directories part h

/-- The name from which dots are counted ends in that of the file, also for a package's own file. -/
theorem importing_eq (h : f.package ≠ []) :
    (if stem f.path == "__init__" then moduleName f.path ++ ".__init__" else moduleName f.path) =
      ".".intercalate (f.package ++ [f.name]) := by
  rw [stem_path, moduleName_path]
  by_cases hinit : f.name = "__init__"
  · simp [hinit, String.intercalate_append_of_ne_nil h, String.append_assoc]
  · simp [hinit]

theorem baseModule_path {i : Import} (hpos : 0 < i.level) (hlevel : i.level ≤ f.package.length) :
    Modules.baseModule f.path i = f.absolute i.level i.module := by
  have hdots : ∀ part ∈ f.package ++ [f.name], '.' ∉ part.toList := by
    intro part hpart hc
    rcases List.mem_append.mp hpart with hpart | hpart
    · exact ((f.isName_of_mem_package hpart).plain _ hc).2.2 rfl
    · exact ((List.mem_singleton.mp hpart ▸ f.isName_name).plain _ hc).2.2 rfl
  have htake : (f.package ++ [f.name]).take ((f.package ++ [f.name]).length - i.level) =
      f.package.take (f.package.length - i.level + 1) := by
    rw [List.length_append, List.length_singleton, List.take_append_of_le_length (by omega)]
    congr 1
    omega
  rw [Modules.baseModule, if_neg (by omega)]
  simp only [f.importing_eq (List.ne_nil_of_length_pos (by omega))]
  rw [absoluteModule_intercalate hdots (by simp; omega), htake, absolute]

end ModuleFile

/-- A relative import leads to the same files as the absolute one that it abbreviates. -/
theorem resolve_relative (m : Modules) (f : ModuleFile) (i : Import) (hpos : 0 < i.level)
    (hlevel : i.level ≤ f.package.length) :
    m.resolve f.path i = m.resolve f.path
      { i with level := 0, module := f.absolute i.level i.module } := by
  have hbase : Modules.baseModule f.path i =
      Modules.baseModule f.path { i with level := 0, module := f.absolute i.level i.module } := by
    rw [f.baseModule_path hpos hlevel]
    rfl
  simp only [Modules.resolve, hbase]

/-- Two dots in a package's own file mean the package around it. -/
theorem resolve_relative_services :
    let services : ModuleFile :=
      ⟨["src", "app", "services"], "__init__", ".py", by decide, by decide, by decide⟩
    let files := ["src/app/models.py", "src/app/services/__init__.py", "src/app/services/models.py"]
    0 < 2 ∧ 2 ≤ services.package.length ∧ services.path = "src/app/services/__init__.py" ∧
      (Modules.ofFiles files).resolve services.path ⟨1, "models", ["User"], 2⟩ =
        (Modules.ofFiles files).resolve services.path ⟨1, "app.models", ["User"], 0⟩ ∧
      (Modules.ofFiles files).resolve services.path ⟨1, "app.models", ["User"], 0⟩ =
        ["src/app/models.py"] := by
  intro services files
  have hlevel : 2 ≤ services.package.length := by decide
  refine ⟨by decide, hlevel, by decide, ?_, by decide +kernel⟩
  exact resolve_relative (Modules.ofFiles files) services ⟨1, "models", ["User"],
    2⟩ (by decide) hlevel

end Imports.Python
end CodeAtlas
