import Mathlib.Data.List.Induction

/-!
# An alarm with one slot

At most one alarm is armed.  Arming another one replaces it, disarming removes
it, and the first check that finds it due sets it off and removes it too.  So
an alarm goes off exactly at the first check at which it is due, unless it has
been replaced or disarmed before.
-/

namespace Library

universe u v

/-- What can happen to the slot. -/
inductive AlarmOp (α : Type u) (β : Type v)
  | arm (alarm : α)
  | disarm
  | check (moment : β)
  | idle

namespace Alarm

variable {α : Type u} {β : Type v} {due : α → β → Prop}
  {ops : List (AlarmOp α β)} {i j : Nat} {alarm : α}

/-! ## When an alarm goes off -/

/-- The operation leaves the alarm armed. -/
def Leaves (due : α → β → Prop) (alarm : α) : AlarmOp α β → Prop
  | .check moment => ¬due alarm moment
  | .idle => True
  | .arm _ | .disarm => False

/-- The alarm armed by operation `i` is due at the check `j`, and everything
in between leaves it armed. -/
structure GoesOff
    (due : α → β → Prop)
    (ops : List (AlarmOp α β))
    (i j : Nat)
    (alarm : α) : Prop where
  armed : ops[i]? = some (.arm alarm)
  later : i < j
  reached : ∃ moment, ops[j]? = some (.check moment) ∧ due alarm moment
  between : ∀ k op, i < k → k < j → ops[k]? = some op → Leaves due alarm op

/-- An alarm goes off at most once. -/
theorem GoesOff.time_unique
    {later : Nat} {other : α}
    (first : GoesOff due ops i j alarm)
    (second : GoesOff due ops i later other) :
    j = later ∧ alarm = other := by
  have same := Option.some.inj (first.armed.symm.trans second.armed)
  obtain rfl : alarm = other := by injection same
  refine ⟨?_, rfl⟩
  obtain ⟨moment, checks, isDue⟩ := first.reached
  obtain ⟨laterMoment, laterChecks, laterDue⟩ := second.reached
  rcases Nat.lt_trichotomy j later with before | same | behind
  · exact absurd isDue (second.between j _ first.later before checks)
  · exact same
  · exact absurd laterDue (first.between later _ second.later behind laterChecks)

/-- A check sets off at most one alarm. -/
theorem GoesOff.armed_unique
    {other' : Nat} {other : α}
    (first : GoesOff due ops i j alarm)
    (second : GoesOff due ops other' j other) :
    i = other' ∧ alarm = other := by
  have same : i = other' := by
    rcases Nat.lt_trichotomy i other' with before | same | behind
    · exact (first.between other' _ before second.later second.armed).elim
    · exact same
    · exact (second.between i _ behind first.later first.armed).elim
  subst same
  exact ⟨rfl, (first.time_unique second).2⟩

/-! ## The slot -/

section

variable (due) [∀ alarm moment, Decidable (due alarm moment)]

/-- The alarm that an operation sets off. -/
def setsOff? (slot : Option α) : AlarmOp α β → Option α
  | .check moment => slot.filter fun alarm => due alarm moment
  | _ => none

/-- The slot after an operation. -/
def next (slot : Option α) : AlarmOp α β → Option α
  | .arm alarm => some alarm
  | .disarm => none
  | .check moment => slot.filter fun alarm => ¬due alarm moment
  | .idle => slot

/-- The slot after a list of operations; it starts empty. -/
def slotAfter (ops : List (AlarmOp α β)) : Option α :=
  ops.foldl (next due) none

end

variable [∀ alarm moment, Decidable (due alarm moment)]

/-- An operation keeps an alarm in the slot, or arms it. -/
theorem next_eq_some_iff {slot : Option α} {op : AlarmOp α β} :
    next due slot op = some alarm ↔
      slot = some alarm ∧ Leaves due alarm op ∨ op = AlarmOp.arm alarm := by
  cases op with
  | arm other => simp [next, Leaves]
  | disarm => simp [next, Leaves]
  | check moment => simp [next, Leaves, Option.filter_eq_some_iff]
  | idle => simp [next, Leaves]

/-- An entry of a list with one entry more. -/
theorem getElem?_concat_eq_some_iff
    {γ : Type u} {early : List γ} {last entry : γ} {k : Nat} :
    (early ++ [last])[k]? = some entry ↔
      early[k]? = some entry ∨ k = early.length ∧ last = entry := by
  rcases Nat.lt_trichotomy k early.length with inside | rfl | outside
  · rw [List.getElem?_append_left inside]
    simp [Nat.ne_of_lt inside]
  · simp
  · rw [List.getElem?_eq_none (by simp; omega),
      List.getElem?_eq_none (Nat.le_of_lt outside)]
    simp [Nat.ne_of_gt outside]

/-- An alarm is in the slot exactly when everything since it was armed has
left it there. -/
theorem slotAfter_eq_some_iff :
    slotAfter due ops = some alarm ↔
      ∃ i, ops[i]? = some (AlarmOp.arm alarm) ∧
        ∀ k : Nat, ∀ op, i < k → ops[k]? = some op → Leaves due alarm op := by
  induction ops using List.reverseRecOn with
  | nil => simp [slotAfter]
  | append_singleton early last inductionHypothesis =>
      have slot : slotAfter due (early ++ [last]) =
          next due (slotAfter due early) last := by
        simp [slotAfter]
      rw [slot, next_eq_some_iff, inductionHypothesis]
      simp only [getElem?_concat_eq_some_iff]
      constructor
      · rintro (⟨⟨i, armed, since⟩, leaves⟩ | rfl)
        · refine ⟨i, Or.inl armed, ?_⟩
          rintro k op after (found | ⟨rfl, rfl⟩)
          · exact since k op after found
          · exact leaves
        · refine ⟨early.length, Or.inr ⟨rfl, rfl⟩, ?_⟩
          rintro k op after (found | ⟨rfl, _⟩)
          · have bound := (List.getElem?_eq_some_iff.mp found).1
            omega
          · omega
      · rintro ⟨i, armed | ⟨rfl, armed⟩, since⟩
        · have bound := (List.getElem?_eq_some_iff.mp armed).1
          refine Or.inl ⟨⟨i, armed, ?_⟩, ?_⟩
          · exact fun k op after found => since k op after (Or.inl found)
          · exact since early.length last bound (Or.inr ⟨rfl, rfl⟩)
        · exact Or.inr armed

/-- An operation sets off exactly the alarms that go off at it. -/
theorem setsOff?_eq_some_iff
    {op : AlarmOp α β}
    (found : ops[j]? = some op) :
    setsOff? due (slotAfter due (ops.take j)) op = some alarm ↔
      ∃ i, GoesOff due ops i j alarm := by
  have earlier : ∀ {k}, k < j → (ops.take j)[k]? = ops[k]? :=
    fun before => List.getElem?_take_of_lt before
  constructor
  · intro goes
    cases op with
    | check moment =>
        obtain ⟨slot, isDue⟩ := Option.filter_eq_some_iff.mp goes
        obtain ⟨i, armed, since⟩ := slotAfter_eq_some_iff.mp slot
        have bound := (List.getElem?_eq_some_iff.mp armed).1
        rw [List.length_take] at bound
        have before : i < j := by omega
        rw [earlier before] at armed
        refine ⟨i, armed, before, ⟨moment, found, of_decide_eq_true isDue⟩, ?_⟩
        intro k op after inTime other
        exact since k op after (by rw [earlier inTime, other])
    | arm | disarm | idle => cases goes
  · rintro ⟨i, armed, before, ⟨moment, checks, isDue⟩, between⟩
    obtain rfl := Option.some.inj (found.symm.trans checks)
    refine Option.filter_eq_some_iff.mpr ⟨?_, decide_eq_true isDue⟩
    refine slotAfter_eq_some_iff.mpr ⟨i, by rw [earlier before, armed], ?_⟩
    intro k op after other
    have bound := (List.getElem?_eq_some_iff.mp other).1
    rw [List.length_take] at bound
    have inTime : k < j := by omega
    rw [earlier inTime] at other
    exact between k op after inTime other

end Alarm
end Library
