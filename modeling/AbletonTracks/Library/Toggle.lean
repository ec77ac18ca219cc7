import Mathlib.Data.List.Nodup

/-!
# Toggling the item at a key

One operation that removes the item with a key if there is one, and else makes
one there.  Items have distinct keys, so toggling at the keys of a list, one by
one, clears it; toggling where nothing is adds an item.
-/

namespace Library

universe u v

variable {α : Type u} {κ : Type v} [DecidableEq κ]
  {key : α → κ} {make : κ → α} {items : List α} {place : κ}

/-- Remove the item at a key, or make one there. -/
def toggle (key : α → κ) (make : κ → α) (items : List α) (place : κ) :
    List α :=
  if ∃ item ∈ items, key item = place then
    items.filter fun item => key item ≠ place
  else items ++ [make place]

theorem toggle_of_mem
    (present : ∃ item ∈ items, key item = place) :
    toggle key make items place = items.filter fun item => key item ≠ place :=
  if_pos present

theorem toggle_of_not_mem
    (absent : ∀ item ∈ items, key item ≠ place) :
    toggle key make items place = items ++ [make place] := by
  refine if_neg ?_
  rintro ⟨item, member, same⟩
  exact absent item member same

/-- Whatever is there after a toggle was there before, or was made. -/
theorem mem_of_mem_toggle
    {item : α}
    (member : item ∈ toggle key make items place) :
    item ∈ items ∨ item = make place := by
  unfold toggle at member
  split at member
  · exact Or.inl (List.mem_filter.mp member).1
  · simpa using member

theorem nodup_map_toggle
    (makes : ∀ place, key (make place) = place)
    (distinct : (items.map key).Nodup)
    (place : κ) :
    ((toggle key make items place).map key).Nodup := by
  unfold toggle
  split
  · exact distinct.sublist (List.filter_sublist.map key)
  · rename_i absent
    rw [List.map_append, List.map_singleton, makes]
    refine List.Nodup.append distinct (List.nodup_singleton place) ?_
    rw [List.disjoint_singleton]
    intro member
    obtain ⟨item, inItems, same⟩ := List.mem_map.mp member
    exact absent ⟨item, inItems, same⟩

/-- Each key finds its own item. -/
theorem filter_key_eq
    {item : α}
    (distinct : (items.map key).Nodup)
    (member : item ∈ items) :
    (items.filter fun other => key other = key item) = [item] := by
  induction items with
  | nil => cases member
  | cons first rest inductionHypothesis =>
      rw [List.map_cons, List.nodup_cons] at distinct
      obtain ⟨apart, distinct⟩ := distinct
      rcases List.mem_cons.mp member with rfl | later
      · have none : (rest.filter fun other => key other = key item) = [] := by
          rw [List.filter_eq_nil_iff]
          intro other inRest same
          exact apart (of_decide_eq_true same ▸ List.mem_map_of_mem inRest)
        rw [List.filter_cons_of_pos (by simp), none]
      · have different : key first ≠ key item := fun same =>
          apart (same ▸ List.mem_map_of_mem later)
        rw [List.filter_cons_of_neg (by simpa using different)]
        exact inductionHypothesis distinct later

/-- Toggling at the key of every item clears the list. -/
theorem foldl_toggle_self (distinct : (items.map key).Nodup) :
    items.foldl (fun left item => toggle key make left (key item)) items =
      [] := by
  induction items with
  | nil => rfl
  | cons first rest inductionHypothesis =>
      rw [List.map_cons, List.nodup_cons] at distinct
      obtain ⟨apart, distinct⟩ := distinct
      have others : (rest.filter fun item => key item ≠ key first) = rest := by
        rw [List.filter_eq_self]
        intro item member
        exact decide_eq_true fun same =>
          apart (same ▸ List.mem_map_of_mem member)
      rw [List.foldl_cons, toggle_of_mem ⟨first, List.mem_cons_self, rfl⟩,
        List.filter_cons_of_neg (by simp), others]
      exact inductionHypothesis distinct

/-- Where what items are mapped to has no duplicates, one item goes to a
value. -/
theorem eq_of_nodup_filterMap
    {β : Type v} {image : α → Option β} {one other : α} {value : β}
    (nodup : (items.filterMap image).Nodup)
    (oneMember : one ∈ items)
    (otherMember : other ∈ items)
    (oneImage : image one = some value)
    (otherImage : image other = some value) :
    one = other := by
  induction items with
  | nil => cases oneMember
  | cons first rest inductionHypothesis =>
      have among : ∀ item ∈ rest, image item = some value →
          value ∈ rest.filterMap image :=
        fun item member same => List.mem_filterMap.mpr ⟨item, member, same⟩
      have later : (rest.filterMap image).Nodup :=
        nodup.sublist ((List.sublist_cons_self _ _).filterMap _)
      rcases List.mem_cons.mp oneMember with rfl | oneLater <;>
        rcases List.mem_cons.mp otherMember with rfl | otherLater
      · rfl
      · rw [List.filterMap_cons_some oneImage, List.nodup_cons] at nodup
        exact absurd (among other otherLater otherImage) nodup.1
      · rw [List.filterMap_cons_some otherImage, List.nodup_cons] at nodup
        exact absurd (among one oneLater oneImage) nodup.1
      · exact inductionHypothesis later oneLater otherLater

end Library
