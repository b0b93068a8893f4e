/-! # Texts in ascending order

A set of texts is a list without repetitions in the order of code points.
-/
namespace CodeAtlas.Text.Ascending

/-- Puts a text at its place in an ascending list, unless it is there already. -/
def insert (s : String) : List String → List String
  | [] => [s]
  | t :: rest => if s < t then s :: t :: rest else if s = t then t :: rest else t :: insert s rest

def ofList (texts : List String) : List String := texts.foldr insert []

@[simp] theorem mem_insert {s t : String} {texts : List String} :
    t ∈ insert s texts ↔ t = s ∨ t ∈ texts := by
  induction texts with
  | nil => simp [insert]
  | cons u rest ih =>
    simp only [insert]
    split
    · simp
    · split
      next h => subst h; simp
      next => simp only [List.mem_cons, ih]; exact or_left_comm

@[simp] theorem mem_ofList {s : String} {texts : List String} : s ∈ ofList texts ↔ s ∈ texts := by
  induction texts with
  | nil => simp [ofList]
  | cons t rest ih => rw [ofList, List.foldr_cons, mem_insert, ← ofList, ih, List.mem_cons]

theorem pairwise_insert {s : String} {texts : List String} (h : texts.Pairwise (· < ·)) :
    (insert s texts).Pairwise (· < ·) := by
  induction texts with
  | nil => simp [insert]
  | cons t rest ih =>
    obtain ⟨hfirst, hrest⟩ := List.pairwise_cons.mp h
    simp only [insert]
    split
    next hlt =>
      refine List.pairwise_cons.mpr ⟨?_, h⟩
      intro u hu
      rcases List.mem_cons.mp hu with rfl | hu
      · exact hlt
      · exact String.lt_trans hlt (hfirst u hu)
    next hnot =>
      split
      · exact h
      next hne =>
        have hts : t < s := String.not_le.mp fun hle =>
            hne (String.le_antisymm hle (String.not_lt.mp hnot))
        refine List.pairwise_cons.mpr ⟨?_, ih hrest⟩
        intro u hu
        rcases mem_insert.mp hu with rfl | hu
        · exact hts
        · exact hfirst u hu

theorem pairwise_ofList (texts : List String) : (ofList texts).Pairwise (· < ·) := by
  induction texts with
  | nil => exact List.Pairwise.nil
  | cons s rest ih => exact pairwise_insert ih

end CodeAtlas.Text.Ascending
