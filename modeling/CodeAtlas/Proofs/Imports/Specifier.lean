import CodeAtlas.Imports.Script
import CodeAtlas.Proofs.Text.NormalPath

/-! # Where relative specifiers lead

A relative specifier is a way from the directory of the importing file. It means the file at the end
of the way, with or without its suffix, or the index file of the directory there. The end of the way
is spelled as a normal path, though, and put together with suffixes and names as text: at the root,
which is spelled as a dot, and right above it, no file is found in this way but one whose name
consists of dots and a suffix.
-/
namespace CodeAtlas.Imports.Script
open Text CodeAtlas.Path

/-- A normal path that is relative to the root. -/
structure IsNormal (p : String) : Prop where
  normalize_eq : normalize p = p
  isAbsolute_eq : isAbsolute p = false

instance (p : String) : Decidable (IsNormal p) :=
  decidable_of_iff (normalize p = p ∧ isAbsolute p = false) ⟨fun h => ⟨h.1, h.2⟩,
    fun h => ⟨h.1, h.2⟩⟩

/-- Where a specifier leads from the directory of a file, as the names on the way from the root;
nowhere if the way goes above the root. -/
def destination? (importer specifier : String) : Option (List String) :=
  ((pieces importer).dropLast ++ pieces specifier).foldlM walk []

/-- The files that a place may stand for, best first: the file there, a file with one of the
suffixes, and the index of the directory. The root is no file. -/
def meanings (names : List String) : List String :=
  (if names = [] then ["."] else ofPieces names :: suffixes.map (ofPieces names ++ ·)) ++
    suffixes.map fun suffix => ofPieces (names ++ ["index" ++ suffix])

section Target
variable {files : List String} {importer specifier : String}

theorem isAbsolute_of_dot (h : startsWith "." specifier.toList = true) :
    isAbsolute specifier = false := by
  obtain ⟨rest, hrest⟩ := Option.isSome_iff_exists.mp h
  have hlist : specifier.toList = '.' :: rest := after?_eq_some_iff.mp hrest
  refine eq_false_of_ne_true fun habsolute => ?_
  obtain ⟨rest', hrest'⟩ := isAbsolute_iff.mp habsolute
  rw [hlist] at hrest'
  cases hrest'

theorem isAbsolute_index (suffix : String) : isAbsolute ("index" ++ suffix) = false := by
  refine eq_false_of_ne_true fun habsolute => ?_
  obtain ⟨rest, hrest⟩ := isAbsolute_iff.mp habsolute
  rw [String.toList_append] at hrest
  cases hrest

/-- The spelling of the end of the way. -/
def target (importer specifier : String) : String := normalize (join (directory importer) specifier)

theorem resolve_eq (h : startsWith "." specifier.toList = true) : resolve files importer specifier =
    (target importer specifier :: (suffixes.map (target importer specifier ++ ·) ++
      suffixes.map fun suffix => join (target importer specifier) ("index" ++ suffix))).find?
        (files.contains ·) := by
  rw [resolve, if_pos h]
  rfl

variable (himporter : isAbsolute importer = false) (hspecifier : isAbsolute specifier = false)
include himporter hspecifier

theorem isAbsolute_way : isAbsolute (join (directory importer) specifier) = false :=
  isAbsolute_join (isAbsolute_directory himporter) hspecifier

omit himporter in
theorem normalNames_way : normalNames (join (directory importer) specifier) =
    resolveDots false (((pieces importer).dropLast ++ pieces specifier).filter counts) := by
  rw [normalNames, components_join _ hspecifier, components_directory, List.filter_append,
    components_eq_filter]

theorem target_of_destination {names : List String}
    (h : destination? importer specifier = some names) :
    target importer specifier = (if names = [] then "." else ofPieces names) ∧
    ∀ name ∈ names, IsComponent name := by
  have hfold := (foldl_push_of_walk (by simp)).1 names h
  have hnames : normalNames (join (directory importer) specifier) = names := by
    rw [normalNames_way hspecifier, resolveDots]
    exact List.reverse_eq_iff.mpr hfold.1
  rw [target, normalize_eq (isAbsolute_way himporter hspecifier), hnames]
  exact ⟨rfl, hnames ▸ isComponent_of_mem_normalNames⟩

/-- Above the root the spelling begins with two dots, and with no more than that for the directory
around the root. -/
theorem target_of_above (h : destination? importer specifier = none) :
    target importer specifier = ".." ∨ ∃ names, names ≠ [] ∧ (∀ name ∈ names, IsComponent name) ∧
    target importer specifier = ".." ++ "/" ++ ofPieces names := by
  have hlast := (foldl_push_of_walk (by simp)).2 h
  have hhead : (normalNames (join (directory importer) specifier)).head? = some ".." := by
    rw [normalNames_way hspecifier, resolveDots, List.head?_reverse]
    exact hlast
  have hcomponents := isComponent_of_mem_normalNames (p := join (directory importer) specifier)
  have htarget := normalize_eq (isAbsolute_way himporter hspecifier)
  generalize normalNames (join (directory importer) specifier) = names at hhead hcomponents htarget
  obtain ⟨names, rfl⟩ : ∃ rest, names = ".." :: rest := List.head?_eq_some_iff.mp hhead
  rw [if_neg (by simp)] at htarget
  by_cases hne : names = []
  · left
    rw [target, htarget, hne]
    rfl
  · right
    refine ⟨names, hne, fun name hname => hcomponents name (List.mem_cons_of_mem _ hname), ?_⟩
    rw [target, htarget, ofPieces, ofPieces]
    obtain ⟨name, rest, rfl⟩ := List.exists_cons_of_ne_nil hne
    rw [String.intercalate_cons_cons]

end Target

theorem find?_append_of_not_mem {files front back : List String} (h : ∀ p ∈ back, p ∉ files) :
    (front ++ back).find? (files.contains ·) = front.find? (files.contains ·) := by
  have hback : back.find? (files.contains ·) = none := by
    rw [List.find?_eq_none]
    intro p hp
    simpa using h p hp
  rw [List.find?_append, hback, Option.or_none]

theorem components_parent : components ".." = [".."] := by decide +kernel

theorem head?_components_parent (behind : String) :
    (components (".." ++ "/" ++ behind)).head? = some ".." := by
  rw [components_append, components_parent]
  rfl

section Below
variable {files : List String} (hbelow : ∀ p ∈ files, (components p).head? ≠ some "..")
include hbelow

theorem join_index_notMem {dir : String} (hdir : (components dir).head? = some "..")
    (suffix : String) : join dir ("index" ++ suffix) ∉ files := by
  intro hmem
  refine hbelow _ hmem ?_
  rw [components_join _ (isAbsolute_index suffix), List.head?_append, hdir, Option.some_or]

/-- Of what may be meant by the directory around the root only a file with its name and a suffix can
be there. -/
theorem find?_parent :
    (".." :: (suffixes.map (".." ++ ·) ++ suffixes.map fun suffix =>
    join ".." ("index" ++ suffix))).find? (files.contains ·) = (suffixes.map (".." ++ ·)).find?
      (files.contains ·) := by
  have hparent : (components "..").head? = some ".." := by rw [components_parent]; rfl
  rw [← List.cons_append, find?_append_of_not_mem, List.find?_cons_of_neg]
  · simpa using fun hmem => hbelow ".." hmem hparent
  · intro p hp
    obtain ⟨suffix, -, rfl⟩ := List.mem_map.mp hp
    exact join_index_notMem hbelow hparent suffix

/-- Nothing that may be meant by a place further up or aside is there. -/
theorem find?_above (behind : String) :
    ((".." ++ "/" ++ behind) :: (suffixes.map (".." ++ "/" ++ behind ++ ·) ++ suffixes.map
    fun suffix => join (".." ++ "/" ++ behind) ("index" ++ suffix))).find?
    (files.contains ·) = none := by
  have hhead := head?_components_parent
  rw [List.find?_eq_none]
  intro p hp
  simp only [List.mem_cons, List.mem_append, List.mem_map] at hp
  rcases hp with rfl | ⟨suffix, -, rfl⟩ | ⟨suffix, -, rfl⟩
  · simpa using fun hmem => hbelow _ hmem (hhead _)
  · simpa using fun hmem => hbelow _ hmem (by rw [String.append_assoc]; exact hhead _)
  · simpa using join_index_notMem hbelow (hhead _) suffix

end Below

/-- A relative specifier means the first of the meanings of the place to which it leads. At the root
no index is found, but a file whose name is a dot and a suffix; above the root no file below it is
found, but one whose name is two dots and a suffix, right above the root. -/
theorem resolve_destination (files : List String) (importer specifier : String)
    (hfiles : ∀ p ∈ files, IsNormal p) (himporter : importer ∈ files)
    (hdot : startsWith "." specifier.toList = true) :
    (∀ names, destination? importer specifier = some names → names ≠ [] →
      resolve files importer specifier = (meanings names).find? (files.contains ·)) ∧
    (destination? importer specifier = some [] →
      resolve files importer specifier = ("." :: suffixes.map ("." ++ ·)).find?
        (files.contains ·)) ∧
    (destination? importer specifier = none → (∀ p ∈ files, (components p).head? ≠ some "..") →
      resolve files importer specifier =
        if target importer specifier = ".." then (suffixes.map (".." ++ ·)).find?
          (files.contains ·) else none) := by
  have hrelative := (hfiles importer himporter).isAbsolute_eq
  have hspecifier := isAbsolute_of_dot hdot
  refine ⟨?_, ?_, ?_⟩
  · intro names hplace hne
    obtain ⟨htarget, hnames⟩ := target_of_destination hrelative hspecifier hplace
    rw [if_neg hne] at htarget
    rw [resolve_eq hdot, htarget, meanings, if_neg hne, List.cons_append]
    simp only [join_ofPieces hne hnames (isAbsolute_index _)]
  · intro hroot
    obtain ⟨htarget, -⟩ := target_of_destination hrelative hspecifier hroot
    rw [if_pos rfl] at htarget
    rw [resolve_eq hdot, htarget, ← List.cons_append, find?_append_of_not_mem]
    intro p hp hmem
    have hspelled : ∀ p ∈ suffixes.map (fun suffix => join "." ("index" ++ suffix)),
        ¬ IsNormal p := by decide +kernel
    exact hspelled p hp (hfiles p hmem)
  · intro habove hbelow
    rw [resolve_eq hdot]
    rcases target_of_above hrelative hspecifier habove with htarget | ⟨names, hne, hnames, htarget⟩
    · rw [htarget, if_pos rfl, find?_parent hbelow]
    · have hother : target importer specifier ≠ ".." := by
        intro heq
        have hcomponents := components_append ".." (ofPieces names)
        rw [← htarget, heq, components_parent, components_ofPieces hnames] at hcomponents
        exact hne (by simpa using hcomponents.symm)
      rw [if_neg hother, htarget, find?_above hbelow]

/-- Files in a directory and at the root, seen from one of them. A name is a file, a file without
its suffix or a directory, in this order. -/
theorem resolve_destination_directory :
    let files :=
      ["lib/a.ts", "lib/b.js", "lib/c/index.mjs", "lib/c.ts", "lib/d/index.tsx", "lib/index.ts"]
    (∀ p ∈ files, IsNormal p) ∧ "lib/a.ts" ∈ files ∧
      (["./b", "../lib//c", "./d/./x/..", "."].map fun specifier =>
        (startsWith "." specifier.toList, destination? "lib/a.ts" specifier)) =
        [(true, some ["lib", "b"]), (true, some ["lib", "c"]), (true, some ["lib", "d"]),
          (true, some ["lib"])] ∧
      resolve files "lib/a.ts" "./b" = some "lib/b.js" ∧
        resolve files "lib/a.ts" "../lib//c" = some "lib/c.ts" ∧
      resolve files "lib/a.ts" "./d/./x/.." = some "lib/d/index.tsx" ∧
        resolve files "lib/a.ts" "." = some "lib/index.ts" := by
  intro files
  have hfiles : ∀ p ∈ files, IsNormal p := by decide +kernel
  have himporter : "lib/a.ts" ∈ files := by decide +kernel
  have hmeans (specifier : String) (names : List String) (found : String)
      (hdot : startsWith "." specifier.toList = true)
      (hplace : destination? "lib/a.ts" specifier = some names) (hne : names ≠ [])
      (hfound : (meanings names).find? (files.contains ·) = some found) :
      resolve files "lib/a.ts" specifier = some found :=
    ((resolve_destination files "lib/a.ts" specifier hfiles himporter hdot).1 names
      hplace hne).trans hfound
  refine ⟨hfiles, himporter, by decide +kernel, ?_, ?_, ?_, ?_⟩
  · exact hmeans "./b" ["lib", "b"] _ (by decide +kernel) (by decide +kernel) (by decide)
      (by decide +kernel)
  · exact hmeans "../lib//c" ["lib", "c"] _ (by decide +kernel) (by decide +kernel) (by decide)
      (by decide +kernel)
  · exact hmeans "./d/./x/.." ["lib", "d"] _ (by decide +kernel) (by decide +kernel) (by decide)
      (by decide +kernel)
  · exact hmeans "." ["lib"] _ (by decide +kernel) (by decide +kernel) (by decide)
      (by decide +kernel)

/-- The index of the root is not found, a file is taken for the root with a suffix, and another one
for the directory around the root with a suffix. -/
theorem resolve_destination_root :
    (destination? "a.js" "." = some [] ∧
      (meanings []).find? (["a.js", "index.js"].contains ·) = some "index.js" ∧
      resolve ["a.js", "index.js"] "a.js" "." = none) ∧
    (destination? "lib/a.js" ".." = some [] ∧
      (meanings []).find? (["..js", "lib/a.js"].contains ·) = none ∧
      resolve ["..js", "lib/a.js"] "lib/a.js" ".." = some "..js") ∧
    (destination? "a.js" ".." = none ∧ resolve ["...js", "a.js"] "a.js" ".." = some "...js") ∧
    ∀ p ∈ ["a.js", "index.js", "..js", "lib/a.js", "...js"], IsNormal p := by
  decide +kernel

end CodeAtlas.Imports.Script
