import Mathlib.Data.List.Pairwise
import Mathlib.Data.List.Sort

/-!
# Stable sorting by a key

Python's `sorted(items, key=key)` is stable.  Insertion sort on the keys
computes the same list and reduces structurally.  `StablySorted` says what a
stable sort is, without saying how to compute it.
-/

namespace Library

universe u v

variable {α : Type u} {κ : Type v}

/-- Python's `sorted(items, key=key)`. -/
def sortedBy
    [LE κ] [DecidableLE κ]
    (key : α → κ)
    (items : List α) : List α :=
  items.insertionSort fun left right => key left ≤ key right

theorem sortedBy_perm
    [LE κ] [DecidableLE κ]
    (key : α → κ)
    (items : List α) :
    (sortedBy key items).Perm items :=
  List.perm_insertionSort _ items

@[simp] theorem mem_sortedBy
    [LE κ] [DecidableLE κ]
    {key : α → κ}
    {items : List α}
    {item : α} :
    item ∈ sortedBy key items ↔ item ∈ items :=
  (sortedBy_perm key items).mem_iff

/-- Inserting behind a block of smaller keys and before a block of larger or
equal ones. -/
private theorem orderedInsert_true
    (key : α → Bool)
    {item : α}
    (itemTrue : key item = true)
    (first second : List α)
    (firstFalse : ∀ other ∈ first, key other = false)
    (secondTrue : ∀ other ∈ second, key other = true) :
    (first ++ second).orderedInsert
        (fun left right => key left ≤ key right) item =
      first ++ item :: second := by
  induction first with
  | nil =>
      cases second with
      | nil => rfl
      | cons head rest =>
          have headTrue := secondTrue head List.mem_cons_self
          simp [List.orderedInsert_cons, itemTrue, headTrue]
  | cons head rest inductionHypothesis =>
      have headFalse := firstFalse head List.mem_cons_self
      have restFalse : ∀ other ∈ rest, key other = false :=
        fun other member => firstFalse other (List.mem_cons_of_mem head member)
      simp [List.orderedInsert_cons, itemTrue, headFalse,
        inductionHypothesis restFalse]

/-- Sorting by a Boolean key moves the `false` items to the front and keeps
the order inside both blocks. -/
theorem sortedBy_bool
    (key : α → Bool)
    (items : List α) :
    sortedBy key items =
      (items.filter fun item => !key item) ++ items.filter key := by
  unfold sortedBy
  induction items with
  | nil => rfl
  | cons item rest inductionHypothesis =>
      rw [List.insertionSort_cons, inductionHypothesis]
      cases itemKey : key item with
      | false =>
          rw [List.filter_cons_of_pos (by simp [itemKey]),
            List.filter_cons_of_neg (by simp [itemKey]), List.cons_append]
          cases sorted :
              (rest.filter fun other => !key other) ++ rest.filter key with
          | nil => rfl
          | cons head tail =>
              simp [List.orderedInsert_cons, itemKey, Bool.false_le]
      | true =>
          rw [List.filter_cons_of_neg (by simp [itemKey]),
            List.filter_cons_of_pos itemKey]
          apply orderedInsert_true key itemKey
          · intro other member
            simpa using (List.mem_filter.mp member).2
          · intro other member
            exact (List.mem_filter.mp member).2

/-! ## Stability -/

/-- The list is what a stable sort makes of the items: a permutation of them,
in the order of their keys, with the items of each key in their old order. -/
structure StablySorted
    [LinearOrder κ]
    (key : α → κ)
    (items sorted : List α) : Prop where
  perm : sorted.Perm items
  ordered : sorted.Pairwise fun left right => key left ≤ key right
  stable : ∀ tied, (sorted.filter fun item => key item = tied) =
    items.filter fun item => key item = tied

/-- Inserting an item passes no item with the same key. -/
theorem filter_orderedInsert
    [LinearOrder κ]
    (key : α → κ)
    (item : α)
    (items : List α)
    (tied : κ) :
    ((items.orderedInsert (fun left right => key left ≤ key right)
        item).filter fun other => key other = tied) =
      (item :: items).filter fun other => key other = tied := by
  induction items with
  | nil => rfl
  | cons first rest inductionHypothesis =>
      rw [List.orderedInsert_cons]
      split
      · rfl
      · rename_i later
        rw [List.filter_cons, inductionHypothesis]
        by_cases same : key item = tied
        · have different : key first ≠ tied := by
            rintro rfl
            exact later (le_of_eq same)
          simp [same, different]
        · simp [List.filter_cons, same]

/-- Python's `sorted` is stable. -/
theorem stablySorted_sortedBy
    [LinearOrder κ]
    (key : α → κ)
    (items : List α) :
    StablySorted key items (sortedBy key items) where
  perm := sortedBy_perm key items
  ordered := by
    have total : Std.Total fun left right : α => key left ≤ key right :=
      ⟨fun left right => le_total (key left) (key right)⟩
    have transitive : IsTrans α fun left right => key left ≤ key right :=
      ⟨fun _ _ _ first second => first.trans second⟩
    exact List.pairwise_insertionSort _ items
  stable tied := by
    unfold sortedBy
    induction items with
    | nil => rfl
    | cons item rest inductionHypothesis =>
        rw [List.insertionSort_cons, filter_orderedInsert, List.filter_cons,
          List.filter_cons, inductionHypothesis]

/-- A list in the order of its keys falls into the items before a key, those at
it and those behind it. -/
theorem eq_filter_append
    [LinearOrder κ]
    {key : α → κ}
    {items : List α}
    (ordered : items.Pairwise fun left right => key left ≤ key right)
    (pivot : κ) :
    items = (items.filter fun item => key item < pivot) ++
      ((items.filter fun item => key item = pivot) ++
        items.filter fun item => pivot < key item) := by
  induction items with
  | nil => rfl
  | cons head rest inductionHypothesis =>
      obtain ⟨behind, ordered⟩ := List.pairwise_cons.mp ordered
      have noneBefore : pivot ≤ key head →
          (rest.filter fun item => key item < pivot) = [] := by
        intro reached
        rw [List.filter_eq_nil_iff]
        intro item member before
        exact absurd (reached.trans (behind item member))
          (not_le.mpr (of_decide_eq_true before))
      have split := inductionHypothesis ordered
      rcases lt_trichotomy (key head) pivot with before | same | after
      · simp only [List.filter_cons, before, before.ne, before.not_gt,
          decide_true, decide_false, if_true, Bool.false_eq_true, if_false,
          List.cons_append, ← split]
      · rw [noneBefore same.ge, List.nil_append] at split
        simp only [List.filter_cons, same, lt_irrefl, decide_true,
          decide_false, if_true, Bool.false_eq_true, if_false,
          noneBefore same.ge, List.nil_append, List.cons_append, ← split]
      · have noneAt : (rest.filter fun item => key item = pivot) = [] := by
          rw [List.filter_eq_nil_iff]
          intro item member at'
          exact absurd ((behind item member).trans_eq (of_decide_eq_true at'))
            (not_le.mpr after)
        rw [noneBefore after.le, noneAt, List.nil_append, List.nil_append]
          at split
        simp only [List.filter_cons, after, after.ne', after.not_gt,
          decide_true, decide_false, if_true, Bool.false_eq_true, if_false,
          noneBefore after.le, noneAt, List.nil_append, ← split]

/-! ## The order of the items -/

/-- Where no two items share a key, the order of the items does not matter. -/
theorem sortedBy_eq_of_perm
    [LinearOrder κ]
    {key : α → κ}
    {items others : List α}
    (distinct : items.Pairwise fun left right => key left ≠ key right)
    (same : others.Perm items) :
    sortedBy key others = sortedBy key items := by
  have whole : (sortedBy key others).Perm (sortedBy key items) :=
    (sortedBy_perm key others).trans
      (same.trans (sortedBy_perm key items).symm)
  have symmetric : Std.Symm fun left right : α => key left ≠ key right :=
    ⟨fun _ _ different => different.symm⟩
  refine whole.eq_of_pairwise ?_ (stablySorted_sortedBy key others).ordered
    (stablySorted_sortedBy key items).ordered
  intro left right leftMember rightMember before behind
  by_contra different
  exact distinct.forall (same.mem_iff.mp (mem_sortedBy.mp leftMember))
    (mem_sortedBy.mp rightMember) different (le_antisymm before behind)

end Library
