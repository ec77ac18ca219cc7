import Mathlib.Data.List.Pairwise
import Mathlib.Data.List.Induction

/-!
# Keeping items apart

Items are taken one by one, and one that is close to an item kept already is
left out.
-/

namespace Library

variable {α : Type} (Close : α → α → Prop) [DecidableRel Close]

/-- One item more: kept, unless a kept one is close to it. -/
def keepOne (kept : List α) (item : α) : List α :=
  if ∃ earlier ∈ kept, Close earlier item then kept else kept ++ [item]

/-- The items that are kept. -/
def keepApart (items : List α) : List α := items.foldl (keepOne Close) []

variable {Close} {items : List α}

theorem keepApart_append_singleton (items : List α) (item : α) :
    keepApart Close (items ++ [item]) =
      keepOne Close (keepApart Close items) item := by
  rw [keepApart, List.foldl_append]
  rfl

/-- The kept items stay in their order. -/
theorem keepApart_sublist (items : List α) :
    (keepApart Close items).Sublist items := by
  induction items using List.reverseRecOn with
  | nil => exact List.Sublist.refl []
  | append_singleton early last inductionHypothesis =>
      rw [keepApart_append_singleton, keepOne]
      split
      · exact inductionHypothesis.trans (List.sublist_append_left _ _)
      · exact inductionHypothesis.append (List.Sublist.refl _)

/-- No kept item is close to one kept before it. -/
theorem pairwise_keepApart (items : List α) :
    (keepApart Close items).Pairwise fun early late => ¬Close early late := by
  induction items using List.reverseRecOn with
  | nil => exact List.Pairwise.nil
  | append_singleton early last inductionHypothesis =>
      rw [keepApart_append_singleton, keepOne]
      split
      · exact inductionHypothesis
      · rename_i far
        refine List.pairwise_append.mpr
          ⟨inductionHypothesis, List.pairwise_singleton _ _, ?_⟩
        intro earlier member item last close
        obtain rfl := List.mem_singleton.mp last
        exact far ⟨earlier, member, close⟩

variable (Close) in
theorem keepApart_append_prefix (early late : List α) :
    keepApart Close early <+: keepApart Close (early ++ late) := by
  induction late using List.reverseRecOn with
  | nil => simp
  | append_singleton late last inductionHypothesis =>
      rw [← List.append_assoc, keepApart_append_singleton, keepOne]
      split
      · exact inductionHypothesis
      · exact inductionHypothesis.trans (List.prefix_append _ _)

variable (Close) in
/-- An item is left out only for one that was kept before it. -/
theorem kept_or_close
    {early late : List α} {item : α}
    (split : items = early ++ item :: late) :
    item ∈ keepApart Close items ∨
      ∃ earlier ∈ keepApart Close early, Close earlier item := by
  have extended := keepApart_append_prefix Close (early ++ [item]) late
  rw [keepApart_append_singleton, List.append_assoc, List.singleton_append,
    ← split, keepOne] at extended
  split at extended
  · rename_i close
    exact Or.inr close
  · exact Or.inl (extended.subset (List.mem_append_right _
      (List.mem_singleton_self item)))

end Library
