import Mathlib.Data.List.Induction

/-!
# Runs of a labelled machine

A machine is a partial step function: `exec state label` is the next state, or
`none` when the label cannot happen in that state.  A run records every step
it takes, so that statements about histories can point at the states before
and after any of them.

`Run.invariant` is the induction rule for properties of states and
`Run.historyInvariant` the one for properties of a state together with the
steps that led to it.
-/

namespace Library

universe u v

variable {σ : Type u} {ι : Type v}

/-- One recorded step of a run. -/
structure Step (σ : Type u) (ι : Type v) where
  /-- The state in which the step was taken. -/
  before : σ
  /-- What happened. -/
  label : ι
  /-- The state the step left behind. -/
  after : σ

/-- `Run exec start steps finish`: from `start` the machine takes `steps`,
oldest first, and ends in `finish`. -/
inductive Run (exec : σ → ι → Option σ) (start : σ) :
    List (Step σ ι) → σ → Prop
  | nil : Run exec start [] start
  | snoc {steps : List (Step σ ι)} {current after : σ} {label : ι} :
      Run exec start steps current →
      exec current label = some after →
      Run exec start (steps ++ [⟨current, label, after⟩]) after

/-- States that some run reaches. -/
def Reachable (exec : σ → ι → Option σ) (start finish : σ) : Prop :=
  ∃ steps, Run exec start steps finish

variable {exec : σ → ι → Option σ} {start finish : σ}
  {steps : List (Step σ ι)}

namespace Run

/-- A property of a state and its history that every step preserves holds at
the end of every run. -/
theorem historyInvariant
    (property : List (Step σ ι) → σ → Prop)
    (initially : property [] start)
    (preserved : ∀ past current label after,
      Run exec start past current → property past current →
      exec current label = some after →
      property (past ++ [⟨current, label, after⟩]) after)
    (run : Run exec start steps finish) :
    property steps finish := by
  induction run with
  | nil => exact initially
  | snoc earlier taken inductionHypothesis =>
      exact preserved _ _ _ _ earlier inductionHypothesis taken

/-- A property of states that every step preserves holds at the end of every
run. -/
theorem invariant
    (property : σ → Prop)
    (initially : property start)
    (preserved : ∀ current label after,
      property current → exec current label = some after → property after)
    (run : Run exec start steps finish) :
    property finish :=
  run.historyInvariant (fun _ state => property state) initially
    fun _ current label after _ holds taken =>
      preserved current label after holds taken

/-- Runs compose. -/
theorem append
    {middle : σ}
    {later : List (Step σ ι)}
    (first : Run exec start steps middle)
    (second : Run exec middle later finish) :
    Run exec start (steps ++ later) finish := by
  induction second with
  | nil => simpa using first
  | snoc _ taken inductionHypothesis =>
      rw [← List.append_assoc]
      exact inductionHypothesis.snoc taken

theorem single
    {label : ι}
    (taken : exec start label = some finish) :
    Run exec start [⟨start, label, finish⟩] finish :=
  (@Run.nil σ ι exec start).snoc taken

theorem cons
    {middle : σ}
    {label : ι}
    (taken : exec start label = some middle)
    (rest : Run exec middle steps finish) :
    Run exec start (⟨start, label, middle⟩ :: steps) finish :=
  (single taken).append rest

/-- Cut a run at one of its steps. -/
theorem split
    {past future : List (Step σ ι)}
    {step : Step σ ι}
    (run : Run exec start (past ++ step :: future) finish) :
    Run exec start past step.before ∧
      exec step.before step.label = some step.after ∧
      Run exec step.after future finish := by
  generalize whole : past ++ step :: future = steps at run
  induction run generalizing future with
  | nil => simp at whole
  | @snoc earlier current after label before taken inductionHypothesis =>
      cases future using List.reverseRecOn with
      | nil =>
          obtain ⟨rfl, equal⟩ := List.append_inj' whole rfl
          simp only [List.cons.injEq, and_true] at equal
          subst equal
          exact ⟨before, taken, Run.nil⟩
      | append_singleton middle last _ =>
          rw [← List.cons_append, ← List.append_assoc] at whole
          obtain ⟨earlierEqual, lastEqual⟩ := List.append_inj' whole rfl
          simp only [List.cons.injEq, and_true] at lastEqual
          subst lastEqual
          obtain ⟨pastRun, stepTaken, rest⟩ := inductionHypothesis earlierEqual
          exact ⟨pastRun, stepTaken, rest.snoc taken⟩

/-- The first step of a run. -/
theorem uncons
    {step : Step σ ι}
    {future : List (Step σ ι)}
    (run : Run exec start (step :: future) finish) :
    (step.before = start ∧ exec step.before step.label = some step.after) ∧
      Run exec step.after future finish := by
  have whole : Run exec start ([] ++ step :: future) finish := run
  obtain ⟨before, taken, rest⟩ := whole.split
  refine ⟨⟨?_, taken⟩, rest⟩
  generalize nothing : ([] : List (Step σ ι)) = past at before
  cases before with
  | nil => rfl
  | snoc => simp at nothing

/-- Cut a run between two steps. -/
theorem splitAppend
    {past future : List (Step σ ι)}
    (run : Run exec start (past ++ future) finish) :
    ∃ middle, Run exec start past middle ∧ Run exec middle future finish := by
  cases future with
  | nil => exact ⟨finish, by simpa using run, Run.nil⟩
  | cons step rest =>
      obtain ⟨pastRun, taken, restRun⟩ := run.split
      exact ⟨step.before, pastRun, restRun.cons taken⟩

/-- A step of a run is a step of the machine. -/
theorem taken_of_mem
    {step : Step σ ι}
    (run : Run exec start steps finish)
    (member : step ∈ steps) :
    exec step.before step.label = some step.after := by
  obtain ⟨past, future, rfl⟩ := List.append_of_mem member
  exact run.split.2.1

/-- Fewer restrictions allow at least the same runs. -/
theorem mono
    {weaker : σ → ι → Option σ}
    (allowed : ∀ current label after,
      exec current label = some after → weaker current label = some after)
    (run : Run exec start steps finish) :
    Run weaker start steps finish := by
  induction run with
  | nil => exact Run.nil
  | snoc _ taken inductionHypothesis =>
      exact inductionHypothesis.snoc (allowed _ _ _ taken)

theorem reachable (run : Run exec start steps finish) :
    Reachable exec start finish :=
  ⟨steps, run⟩

/-- A property that every step meeting a condition preserves holds after every
run whose steps all meet the condition. -/
theorem conditionalInvariant
    (property : σ → Prop)
    (condition : σ → ι → Prop)
    (initially : property start)
    (preserved : ∀ current label after,
      Reachable exec start current → property current →
      condition current label →
      exec current label = some after → property after)
    (run : Run exec start steps finish)
    (allowed : ∀ step ∈ steps, condition step.before step.label) :
    property finish := by
  induction run with
  | nil => exact initially
  | snoc earlier taken inductionHypothesis =>
      refine preserved _ _ _ earlier.reachable (inductionHypothesis ?_) ?_ taken
      · intro step member
        exact allowed step (List.mem_append_left _ member)
      · exact allowed _ (List.mem_append_right _ List.mem_cons_self)

/-- Under the same conditions the property holds after every step. -/
theorem conditionalInvariant_after
    (property : σ → Prop)
    (condition : σ → ι → Prop)
    (initially : property start)
    (preserved : ∀ current label after,
      Reachable exec start current → property current →
      condition current label →
      exec current label = some after → property after)
    (run : Run exec start steps finish)
    (allowed : ∀ step ∈ steps, condition step.before step.label) :
    ∀ step ∈ steps, property step.after := by
  intro step member
  obtain ⟨past, future, rfl⟩ := List.append_of_mem member
  obtain ⟨pastRun, taken, _⟩ := run.split
  refine (pastRun.snoc taken).conditionalInvariant property condition
    initially preserved fun other earlier => allowed other ?_
  rw [List.append_cons]
  exact List.mem_append_left _ earlier

/-- The same for properties and conditions that look at the steps so far. -/
theorem conditionalHistoryInvariant
    (property : List (Step σ ι) → σ → Prop)
    (condition : List (Step σ ι) → Step σ ι → Prop)
    (initially : property [] start)
    (preserved : ∀ past current label after,
      Run exec start past current → property past current →
      condition past ⟨current, label, after⟩ →
      exec current label = some after →
      property (past ++ [⟨current, label, after⟩]) after)
    (run : Run exec start steps finish)
    (allowed : ∀ past step future, steps = past ++ step :: future →
      condition past step) :
    property steps finish := by
  induction run with
  | nil => exact initially
  | @snoc earlier current after label before taken inductionHypothesis =>
      refine preserved _ _ _ _ before (inductionHypothesis ?_)
        (allowed earlier _ [] rfl) taken
      rintro past step future rfl
      refine allowed past step (future ++ [⟨current, label, after⟩]) ?_
      rw [List.append_assoc, List.cons_append]

/-- It holds after every step. -/
theorem conditionalHistoryInvariant_after
    (property : List (Step σ ι) → σ → Prop)
    (condition : List (Step σ ι) → Step σ ι → Prop)
    (initially : property [] start)
    (preserved : ∀ past current label after,
      Run exec start past current → property past current →
      condition past ⟨current, label, after⟩ →
      exec current label = some after →
      property (past ++ [⟨current, label, after⟩]) after)
    (run : Run exec start steps finish)
    (allowed : ∀ past step future, steps = past ++ step :: future →
      condition past step) :
    ∀ past step future, steps = past ++ step :: future →
      property (past ++ [step]) step.after := by
  rintro past step future rfl
  obtain ⟨pastRun, taken, _⟩ := run.split
  refine (pastRun.snoc taken).conditionalHistoryInvariant property condition
    initially preserved ?_
  intro earlier other later whole
  refine allowed earlier other (later ++ future) ?_
  rw [List.append_cons, whole, List.append_assoc, List.cons_append]

end Run

namespace Reachable

theorem refl (exec : σ → ι → Option σ) (start : σ) :
    Reachable exec start start :=
  ⟨[], Run.nil⟩

theorem step
    {label : ι}
    {after : σ}
    (reachable : Reachable exec start finish)
    (taken : exec finish label = some after) :
    Reachable exec start after :=
  let ⟨_, run⟩ := reachable
  ⟨_, run.snoc taken⟩

/-- The induction rule for reachable states. -/
theorem invariant
    (property : σ → Prop)
    (initially : property start)
    (preserved : ∀ current label after,
      property current → exec current label = some after → property after)
    (reachable : Reachable exec start finish) :
    property finish :=
  let ⟨_, run⟩ := reachable
  run.invariant property initially preserved

end Reachable

/-! ## Replaying a list of labels -/

/-- The steps and the final state of the run with the given labels. -/
def replay (exec : σ → ι → Option σ) :
    σ → List ι → Option (List (Step σ ι) × σ)
  | start, [] => some ([], start)
  | start, label :: labels =>
      (exec start label).bind fun middle =>
        (replay exec middle labels).map fun rest =>
          (⟨start, label, middle⟩ :: rest.1, rest.2)

/-- The final state of the run with the given labels. -/
def execAll (exec : σ → ι → Option σ) (start : σ) (labels : List ι) :
    Option σ :=
  (replay exec start labels).map Prod.snd

theorem run_of_replay
    {labels : List ι}
    (replayed : replay exec start labels = some (steps, finish)) :
    Run exec start steps finish := by
  induction labels generalizing start steps with
  | nil =>
      simp only [replay, Option.some.injEq, Prod.mk.injEq] at replayed
      obtain ⟨rfl, rfl⟩ := replayed
      exact Run.nil
  | cons label labels inductionHypothesis =>
      simp only [replay, Option.bind_eq_some_iff, Option.map_eq_some_iff,
        Prod.mk.injEq, Prod.exists] at replayed
      obtain ⟨middle, taken, rest, last, restReplayed, rfl, rfl⟩ := replayed
      exact (inductionHypothesis restReplayed).cons taken

/-- A replay takes a step for each of its labels. -/
theorem labels_of_replay
    {labels : List ι}
    (replayed : replay exec start labels = some (steps, finish)) :
    steps.map Step.label = labels := by
  induction labels generalizing start steps with
  | nil =>
      simp only [replay, Option.some.injEq, Prod.mk.injEq] at replayed
      obtain ⟨rfl, _⟩ := replayed
      rfl
  | cons label labels inductionHypothesis =>
      simp only [replay, Option.bind_eq_some_iff, Option.map_eq_some_iff,
        Prod.mk.injEq, Prod.exists] at replayed
      obtain ⟨middle, _, rest, last, restReplayed, rfl, rfl⟩ := replayed
      rw [List.map_cons, inductionHypothesis restReplayed]

/-- The last two steps of a list. -/
def lastTwo? (steps : List (Step σ ι)) : Option (Step σ ι × Step σ ι) :=
  match steps.reverse with
  | after :: before :: _ => some (before, after)
  | _ => none

/-- A replay ends with the steps of its last two labels. -/
theorem lastTwo_of_replay
    {early : List ι} {first second : ι}
    (replayed : replay exec start (early ++ [first, second]) =
      some (steps, finish)) :
    ∃ past before after, steps = past ++ [before, after] ∧
      before.label = first ∧ after.label = second ∧
      lastTwo? steps = some (before, after) := by
  have labels := labels_of_replay replayed
  simp only [List.map_eq_append_iff, List.map_eq_cons_iff,
    List.map_eq_nil_iff] at labels
  obtain ⟨past, _, rfl, _, before, _, rfl, own, after, _, rfl, next, rfl⟩ :=
    labels
  exact ⟨past, before, after, rfl, own, next, by simp [lastTwo?]⟩

theorem execAll_cons
    {middle : σ}
    {label : ι}
    (taken : exec start label = some middle)
    (labels : List ι) :
    execAll exec start (label :: labels) = execAll exec middle labels := by
  simp [execAll, replay, taken, Function.comp_def]

theorem reachable_of_execAll
    {labels : List ι}
    (executed : execAll exec start labels = some finish) :
    Reachable exec start finish := by
  obtain ⟨⟨steps, last⟩, replayed, rfl⟩ := Option.map_eq_some_iff.mp executed
  exact ⟨steps, run_of_replay replayed⟩

/-! ## Testing every step of a list -/

/-- A test of every step with the steps before it. -/
def everySplit (test : List (Step σ ι) → Step σ ι → Bool) :
    List (Step σ ι) → List (Step σ ι) → Bool
  | _, [] => true
  | past, step :: rest =>
      test past step && everySplit test (past ++ [step]) rest

theorem of_everySplit
    {test : List (Step σ ι) → Step σ ι → Bool}
    {early : List (Step σ ι)}
    (passed : everySplit test early steps = true) :
    ∀ past step future, steps = past ++ step :: future →
      test (early ++ past) step = true := by
  induction steps generalizing early with
  | nil =>
      intro past step future whole
      simp at whole
  | cons first rest inductionHypothesis =>
      rw [everySplit, Bool.and_eq_true] at passed
      intro past step future whole
      cases past with
      | nil =>
          obtain ⟨rfl, _⟩ := List.cons.inj whole
          rw [List.append_nil]
          exact passed.1
      | cons earlier past =>
          obtain ⟨rfl, same⟩ := List.cons.inj whole
          rw [List.append_cons]
          exact inductionHypothesis passed.2 past step future same

/-! ## Since -/

/-- Something happened, and something else holds of all that came after it. -/
def Since {α : Type*} (happened stays : α → Prop) (items : List α) : Prop :=
  ∃ early item late, items = early ++ item :: late ∧ happened item ∧
    ∀ later ∈ late, stays later

theorem not_since_nil {α : Type*} {happened stays : α → Prop} :
    ¬Since happened stays [] := by
  rintro ⟨early, item, late, none, _⟩
  simp at none

theorem since_snoc
    {α : Type*} {happened stays : α → Prop} {items : List α} {last : α} :
    Since happened stays (items ++ [last]) ↔
      Since happened stays items ∧ stays last ∨ happened last := by
  constructor
  · rintro ⟨early, item, late, split, happens, after⟩
    obtain rfl | ⟨late, final, rfl⟩ := List.eq_nil_or_concat late
    · obtain ⟨_, same⟩ := List.append_inj' split rfl
      obtain rfl := List.head_eq_of_cons_eq same
      exact .inr happens
    · have split : items ++ [last] = early ++ item :: late ++ [final] := by
        simpa using split
      obtain ⟨rfl, same⟩ := List.append_inj' split rfl
      obtain rfl := List.head_eq_of_cons_eq same
      rw [List.concat_eq_append, List.forall_mem_append] at after
      exact .inl ⟨⟨early, item, late, rfl, happens, after.1⟩,
        after.2 last List.mem_cons_self⟩
  · rintro (⟨⟨early, item, late, rfl, happens, after⟩, stays⟩ | happens)
    · refine ⟨early, item, late ++ [last], by simp, happens, ?_⟩
      rw [List.forall_mem_append]
      exact ⟨after, List.forall_mem_singleton.mpr stays⟩
    · exact ⟨items, last, [], rfl, happens,
        fun _ member => (List.not_mem_nil member).elim⟩

theorem since_cons
    {α : Type*} {happened stays : α → Prop} {first : α} {items : List α} :
    Since happened stays (first :: items) ↔
      (happened first ∧ ∀ later ∈ items, stays later) ∨
        Since happened stays items := by
  constructor
  · rintro ⟨early, item, late, split, happens, after⟩
    cases early with
    | nil =>
        obtain ⟨rfl, rfl⟩ := List.cons.inj split
        exact .inl ⟨happens, after⟩
    | cons earlier early =>
        obtain ⟨_, rfl⟩ := List.cons.inj split
        exact .inr ⟨early, item, late, rfl, happens, after⟩
  · rintro (⟨happens, after⟩ | ⟨early, item, late, rfl, happens, after⟩)
    · exact ⟨[], first, items, rfl, happens, after⟩
    · exact ⟨first :: early, item, late, rfl, happens, after⟩

instance decidableSince
    {α : Type*} {happened stays : α → Prop}
    [DecidablePred happened] [DecidablePred stays] :
    (items : List α) → Decidable (Since happened stays items)
  | [] => isFalse not_since_nil
  | _ :: items =>
      haveI : Decidable (Since happened stays items) := decidableSince items
      decidable_of_iff _ since_cons.symm

end Library
