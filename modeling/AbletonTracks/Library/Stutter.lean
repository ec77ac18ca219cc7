import Mathlib.Data.List.Destutter
import Mathlib.Data.List.Induction

/-!
# Lists up to immediate repetitions

Two lists tell the same when they differ only in how often an item is repeated
at once.  One more item then keeps them so, and a step that does nothing the
second time in a row leads to the same state along both.
-/

namespace Library

universe u v

variable {α : Type u} [DecidableEq α]

/-- The items, without those that repeat the one before. -/
def distinctRuns (items : List α) : List α := items.destutter (· ≠ ·)

private theorem destutter'_concat_ne
    (first item : α)
    (items : List α) :
    (items ++ [item]).destutter' (· ≠ ·) first =
      if (first :: items).getLast? = some item then
        items.destutter' (· ≠ ·) first
      else items.destutter' (· ≠ ·) first ++ [item] := by
  induction items generalizing first with
  | nil => by_cases same : first = item <;> simp [same]
  | cons next rest inductionHypothesis =>
      rw [List.cons_append, List.getLast?_cons_cons]
      by_cases same : first = next
      · subst same
        rw [List.destutter'_cons_neg _ (not_not.mpr rfl),
          List.destutter'_cons_neg _ (not_not.mpr rfl), inductionHypothesis]
      · rw [List.destutter'_cons_pos _ same, List.destutter'_cons_pos _ same,
          inductionHypothesis]
        split <;> rfl

/-- One more item counts unless it repeats the last one. -/
theorem distinctRuns_append_singleton (items : List α) (item : α) :
    distinctRuns (items ++ [item]) =
      if items.getLast? = some item then distinctRuns items
      else distinctRuns items ++ [item] := by
  cases items with
  | nil => rfl
  | cons first rest => exact destutter'_concat_ne first item rest

theorem distinctRuns_append_of_getLast?
    {items : List α} {item : α}
    (last : items.getLast? = some item) :
    distinctRuns (items ++ [item]) = distinctRuns items := by
  rw [distinctRuns_append_singleton, if_pos last]

theorem getLast?_distinctRuns (items : List α) :
    (distinctRuns items).getLast? = items.getLast? := by
  induction items using List.reverseRecOn with
  | nil => rfl
  | append_singleton early last inductionHypothesis =>
      rw [distinctRuns_append_singleton, List.getLast?_concat]
      split
      · rename_i same
        rw [inductionHypothesis, same]
      · exact List.getLast?_concat

/-- Lists that tell the same do so with one more item. -/
theorem distinctRuns_append_congr
    {items others : List α}
    (same : distinctRuns items = distinctRuns others)
    (item : α) :
    distinctRuns (items ++ [item]) = distinctRuns (others ++ [item]) := by
  have last := congrArg List.getLast? same
  rw [getLast?_distinctRuns, getLast?_distinctRuns] at last
  rw [distinctRuns_append_singleton, distinctRuns_append_singleton, same,
    last]

/-- A step that does nothing the second time in a row does not see immediate
repetitions. -/
theorem foldl_distinctRuns
    {σ : Type v} {step : σ → α → σ} {items : List α}
    (idempotent : ∀ item ∈ items, ∀ state,
      step (step state item) item = step state item)
    (state : σ) :
    (distinctRuns items).foldl step state = items.foldl step state := by
  induction items using List.reverseRecOn with
  | nil => rfl
  | append_singleton early last inductionHypothesis =>
      have earlier := inductionHypothesis fun item member =>
        idempotent item (List.mem_append_left _ member)
      rw [distinctRuns_append_singleton, List.foldl_concat]
      split
      · rename_i same
        obtain ⟨before, rfl⟩ := List.getLast?_eq_some_iff.mp same
        rw [earlier, List.foldl_concat, idempotent last (by simp)]
      · rw [List.foldl_concat, earlier]

/-- Lists that tell the same lead such a step to the same state. -/
theorem foldl_eq_of_distinctRuns
    {σ : Type v} {step : σ → α → σ} {items others : List α}
    (idempotent : ∀ item ∈ items ++ others, ∀ state,
      step (step state item) item = step state item)
    (same : distinctRuns items = distinctRuns others)
    (state : σ) :
    items.foldl step state = others.foldl step state := by
  rw [← foldl_distinctRuns (fun item member =>
      idempotent item (List.mem_append_left _ member)), same,
    foldl_distinctRuns fun item member =>
      idempotent item (List.mem_append_right _ member)]

end Library
