import Mathlib.Order.Lattice

/-!
# What is current on a timeline

Items in the order in which they start.  At any time the current item is the
last one that has started; it stays current until the next one starts.
-/

namespace Library

universe u v

variable {α : Type u} {κ : Type v} [LinearOrder κ]
  {start : α → κ} {time : κ}

/-- The last item that has started. -/
def current? (start : α → κ) (items : List α) (time : κ) : Option α :=
  (items.filter fun item => start item ≤ time).getLast?

/-- The starts of the items never go back. -/
def Chronological (start : α → κ) (items : List α) : Prop :=
  items.Pairwise fun early late => start early ≤ start late

@[simp] theorem current?_nil : current? start [] time = none := rfl

/-- Whatever comes later counts first. -/
theorem current?_append (early late : List α) :
    current? start (early ++ late) time =
      (current? start late time).or (current? start early time) := by
  rw [current?, List.filter_append, List.getLast?_append]
  rfl

theorem mem_of_current? {items : List α} {item : α}
    (current : current? start items time = some item) :
    item ∈ items ∧ start item ≤ time := by
  have member := List.mem_of_getLast? current
  simpa using List.mem_filter.mp member

theorem current?_eq_none_iff {items : List α} :
    current? start items time = none ↔
      ∀ item ∈ items, time < start item := by
  simp [current?]

/-- The started items come first. -/
theorem takeWhile_eq_filter
    {items : List α}
    (ordered : Chronological start items) :
    (items.takeWhile fun item => start item ≤ time) =
      items.filter fun item => start item ≤ time := by
  induction items with
  | nil => rfl
  | cons first rest inductionHypothesis =>
      obtain ⟨before, ordered⟩ := List.pairwise_cons.mp ordered
      by_cases started : start first ≤ time
      · simp [started, inductionHypothesis ordered]
      · have waiting : (rest.filter fun item => start item ≤ time) = [] := by
          rw [List.filter_eq_nil_iff]
          intro item member reached
          exact started ((before item member).trans (of_decide_eq_true reached))
        simp [started, waiting]

theorem current?_map {β : Type*} (make : β → α) (items : List β) :
    current? start (items.map make) time =
      (current? (start ∘ make) items time).map make := by
  rw [current?, List.filter_map, List.getLast?_map]
  rfl

/-- With the items numbered in order, the current one has the last number of
those that have started. -/
theorem current?_zipIdx
    {items : List α}
    (ordered : Chronological start items)
    (number : Nat)
    (time : κ) :
    (current? (fun entry => start entry.1) (items.zipIdx number) time).map
        Prod.snd =
      if (items.takeWhile fun item => start item ≤ time) = [] then none
      else some (number +
        ((items.takeWhile fun item => start item ≤ time).length - 1)) := by
  induction items generalizing number with
  | nil => rfl
  | cons first rest inductionHypothesis =>
      obtain ⟨before, ordered⟩ := List.pairwise_cons.mp ordered
      have later := inductionHypothesis ordered (number + 1)
      have split : (first :: rest).zipIdx number =
          [(first, number)] ++ rest.zipIdx (number + 1) := rfl
      rw [split, current?_append, Option.map_or, later]
      by_cases started : start first ≤ time
      · by_cases alone :
            (rest.takeWhile fun item => start item ≤ time) = []
        · simp [current?, started, alone]
        · have some' := List.length_pos_iff.mpr alone
          simp only [alone, if_false, started, decide_true,
            List.takeWhile_cons_of_pos, reduceCtorEq, Option.some_or,
            List.length_cons, Option.some.injEq]
          omega
      · have waiting : (rest.takeWhile fun item => start item ≤ time) = [] := by
          rw [takeWhile_eq_filter ordered, List.filter_eq_nil_iff]
          intro item member reached
          exact started ((before item member).trans (of_decide_eq_true reached))
        simp [current?, started, waiting]

/-- An item is current from its start to that of the next one. -/
theorem current?_eq_some_iff
    {early late : List α} {item : α}
    (ordered : Chronological start (early ++ item :: late))
    (distinct : (early ++ item :: late).Nodup) :
    current? start (early ++ item :: late) time = some item ↔
      start item ≤ time ∧ ∀ next ∈ late.head?, time < start next := by
  obtain ⟨_, fromItem, _⟩ := List.pairwise_append.mp ordered
  obtain ⟨_, lateOrdered⟩ := List.pairwise_cons.mp fromItem
  obtain ⟨_, laterDistinct, apart⟩ := List.nodup_append.mp distinct
  have notLate := (List.nodup_cons.mp laterDistinct).1
  have notEarly : item ∉ early := fun member =>
    apart item member item List.mem_cons_self rfl
  have single : current? start [item] time =
      if start item ≤ time then some item else none := by
    by_cases started : start item ≤ time <;> simp [current?, started]
  have whole : early ++ item :: late = early ++ ([item] ++ late) := rfl
  rw [whole, current?_append, current?_append, single]
  cases later : current? start late time with
  | some other =>
      obtain ⟨member, reached⟩ := mem_of_current? later
      apply iff_of_false
      · intro same
        obtain rfl := Option.some.inj same
        exact notLate member
      · rintro ⟨_, waiting⟩
        cases late with
        | nil => cases member
        | cons next rest =>
            have before : start next ≤ start other := by
              rcases List.mem_cons.mp member with rfl | behind
              · exact le_rfl
              · exact (List.pairwise_cons.mp lateOrdered).1 other behind
            exact absurd (before.trans reached) (not_le.mpr (waiting next rfl))
  | none =>
      have waiting := current?_eq_none_iff.mp later
      have next : ∀ next ∈ late.head?, time < start next :=
        fun next member => waiting next (List.mem_of_head? member)
      by_cases started : start item ≤ time
      · simpa [started] using next
      · apply iff_of_false
        · simp only [started, if_false, Option.none_or]
          intro current
          exact notEarly (mem_of_current? current).1
        · exact fun both => started both.1

/-- The current item starts last of those that have started. -/
theorem exists_current?
    {items : List α} {item : α}
    (ordered : Chronological start items)
    (member : item ∈ items)
    (started : start item ≤ time) :
    ∃ current, current? start items time = some current ∧
      start item ≤ start current := by
  obtain ⟨early, late, rfl⟩ := List.append_of_mem member
  obtain ⟨_, fromItem, _⟩ := List.pairwise_append.mp ordered
  have before := (List.pairwise_cons.mp fromItem).1
  have single : current? start [item] time = some item := by
    simp [current?, started]
  have whole : early ++ item :: late = early ++ ([item] ++ late) := rfl
  rw [whole, current?_append, current?_append, single]
  cases later : current? start late time with
  | none => exact ⟨item, by simp, le_rfl⟩
  | some other =>
      exact ⟨other, by simp, before other (mem_of_current? later).1⟩

/-- The same item is current at two times exactly when the same items have
started. -/
theorem current?_eq_iff
    {items : List α} {other : κ}
    (ordered : Chronological start items) :
    current? start items time = current? start items other ↔
      ∀ item ∈ items, start item ≤ time ↔ start item ≤ other := by
  constructor
  · intro same item member
    constructor
    · intro started
      obtain ⟨current, found, before⟩ :=
        exists_current? ordered member started
      exact before.trans (mem_of_current? (same ▸ found)).2
    · intro started
      obtain ⟨current, found, before⟩ :=
        exists_current? ordered member started
      exact before.trans (mem_of_current? (same ▸ found)).2
  · intro same
    rw [current?, current?, List.filter_congr]
    intro item member
    simp only [same item member]

end Library
