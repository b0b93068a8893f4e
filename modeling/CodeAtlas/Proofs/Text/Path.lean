import CodeAtlas.Path
import CodeAtlas.Proofs.Text.Find
import CodeAtlas.Proofs.Text.Lines

/-! # Components of paths

The components of a path do not depend on how it is spelled: joining paths appends their
components, and cleaning a path keeps them. Names without a slash are the components of the path
that is made of them.
-/
namespace CodeAtlas.Path
open Text

/-- A name that may stand between slashes and counts. -/
structure IsComponent (name : String) : Prop where
  ne_empty : name ≠ ""
  ne_dot : name ≠ "."
  slash : '/' ∉ name.toList

theorem slash_not_mem_of_mem_pieces {p name : String} (h : name ∈ pieces p) :
    '/' ∉ name.toList := by
  obtain ⟨piece, hpiece, rfl⟩ := List.mem_map.mp h
  rw [String.toList_ofList]
  exact not_mem_of_mem_splitOn hpiece

theorem isComponent_of_mem {p name : String} (h : name ∈ components p) : IsComponent name := by
  obtain ⟨hpieces, hcounts⟩ := List.mem_filter.mp h
  simp only [Bool.and_eq_true, bne_iff_ne, ne_eq] at hcounts
  exact ⟨hcounts.1, hcounts.2, slash_not_mem_of_mem_pieces hpieces⟩

theorem pieces_ofPieces {names : List String} (hne : names ≠ [])
    (h : ∀ name ∈ names, '/' ∉ name.toList) : pieces (ofPieces names) = names := by
  rw [pieces, ofPieces, splitOn_toList_intercalate rfl hne h, List.map_map]
  simp

theorem components_empty : components "" = [] := rfl

theorem components_ofPieces {names : List String} (h : ∀ name ∈ names, IsComponent name) :
    components (ofPieces names) = names := by
  by_cases hne : names = []
  · rw [hne]
    rfl
  · rw [components, pieces_ofPieces hne fun name hname => (h name hname).slash, List.filter_eq_self]
    intro name hname
    simp [(h name hname).ne_empty, (h name hname).ne_dot]

theorem ofPieces_inj {names others : List String} (hnames : names ≠ []) (hothers : others ≠ [])
    (hslash : ∀ name ∈ names, '/' ∉ name.toList) (hslash' : ∀ name ∈ others, '/' ∉ name.toList)
    (h : ofPieces names = ofPieces others) : names = others := by
  rw [← pieces_ofPieces hnames hslash, h, pieces_ofPieces hothers hslash']

theorem head?_pieces_of_isAbsolute {p : String} (h : isAbsolute p = true) :
    (pieces p).head? = some "" := by
  obtain ⟨rest, hrest⟩ := Option.isSome_iff_exists.mp h
  have hlist : p.toList = '/' :: rest := after?_eq_some_iff.mp hrest
  have hcut := splitOn_append_sep '/' [] rest
  rw [List.nil_append] at hcut
  rw [pieces, hlist, hcut]
  rfl

theorem isAbsolute_ofPieces {names : List String} (h : ∀ name ∈ names, IsComponent name) :
    isAbsolute (ofPieces names) = false := by
  by_contra habsolute
  have hhead := head?_pieces_of_isAbsolute (Bool.of_not_eq_false habsolute)
  by_cases hne : names = []
  · exact habsolute (by rw [hne]; rfl)
  · rw [pieces_ofPieces hne fun name hname => (h name hname).slash] at hhead
    exact (h "" (List.mem_of_head? hhead)).ne_empty rfl

/-! ## Joining and cleaning -/

theorem components_append (a b : String) :
    components (a ++ "/" ++ b) = components a ++ components b := by
  have hlist : (a ++ "/" ++ b).toList = a.toList ++ '/' :: b.toList := by simp
  simp [components, pieces, hlist, splitOn_append_sep]

theorem components_slash (p : String) : components ("/" ++ p) = components p := by
  have h := components_append "" p
  rwa [String.empty_append, components_empty, List.nil_append] at h

theorem exists_of_endsWith_slash {p : String} (h : endsWith "/" p.toList = true) :
    ∃ q, p = q ++ "/" := by
  obtain ⟨rest, hrest⟩ := Option.isSome_iff_exists.mp h
  have hreverse : p.toList.reverse = '/' :: rest := after?_eq_some_iff.mp hrest
  have hlist : p.toList = rest.reverse ++ ['/'] := by
    rw [← List.reverse_reverse p.toList, hreverse, List.reverse_cons]
  refine ⟨String.ofList rest.reverse, String.toList_inj.mp ?_⟩
  simp [hlist]

theorem components_join {p : String} (dir : String) (h : isAbsolute p = false) :
    components (join dir p) = components dir ++ components p := by
  unfold join
  rw [h, if_neg (by decide)]
  split
  next hdir =>
    rcases Bool.or_eq_true_iff.mp hdir with hempty | hend
    · obtain rfl : dir = "" := by simpa using hempty
      rw [String.empty_append, components_empty, List.nil_append]
    · obtain ⟨q, rfl⟩ := exists_of_endsWith_slash hend
      have hcut := components_append q ""
      rw [String.append_empty, components_empty, List.append_nil] at hcut
      rw [components_append, hcut]
  next => exact components_append dir p

theorem components_anchor_append (p q : String) : components (anchor p ++ q) = components q := by
  have htwo : components ("//" ++ q) = components q := by
    rw [show "//" ++ q = "/" ++ ("/" ++ q) by
      rw [← String.append_assoc]; rfl, components_slash, components_slash]
  unfold anchor
  split
  · exact components_slash q
  · exact htwo
  · exact components_slash q
  · rw [String.empty_append]

theorem components_clean (p : String) : components (clean p) = components p := by
  have hcomponents : components (anchor p ++ ofPieces (components p)) = components p := by
    rw [components_anchor_append, components_ofPieces fun _ => isComponent_of_mem]
  simp only [clean]
  split
  next hempty =>
    rw [show anchor p ++ ofPieces (components p) = "" by simpa using hempty] at hcomponents
    exact hcomponents
  next => exact hcomponents

end CodeAtlas.Path
