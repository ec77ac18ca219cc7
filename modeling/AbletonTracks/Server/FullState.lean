import AbletonTracks.Server.Roles

/-!
# Whom a full-state broadcast reaches

`broadcast_full_state` fixes its recipients when it starts, but builds each
snapshot when its turn comes.  A recipient that has left by then makes it raise
a `KeyError`, and everybody after it gets nothing.  If it never meets such a
recipient it reaches every one exactly once.
-/

namespace AbletonTracks

open Library

namespace System

variable {s after : System} {c : Coroutine} {event : Event}

/-! ## Steps of other coroutines -/

/-- The frames with a full state that a coroutine has sent to a socket. -/
def snapshotsTo (c : Coroutine) (ws : WebSocket) (sent : List Sent) :
    List Sent :=
  sent.filter fun sent =>
    sent.sender = c ∧ sent.frame.socket = ws ∧
      sent.frame.message.role?.isSome

/-- A coroutine stands where it stood and has neither sent nor raised. -/
structure Untouched (c : Coroutine) (s after : System) : Prop where
  phase : after.phase? c = s.phase? c
  sent : ∀ ws, snapshotsTo c ws after.sent = snapshotsTo c ws s.sent
  failed : c ∈ after.failed ↔ c ∈ s.failed

namespace Untouched

theorem refl (c : Coroutine) (s : System) : Untouched c s s :=
  ⟨rfl, fun _ => rfl, Iff.rfl⟩

theorem trans
    {middle : System}
    (first : Untouched c s middle)
    (second : Untouched c middle after) :
    Untouched c s after :=
  ⟨second.phase.trans first.phase,
    fun ws => (second.sent ws).trans (first.sent ws),
    second.failed.trans first.failed⟩

theorem enter
    {other : Coroutine}
    (different : c ≠ other)
    (phase : Phase) :
    Untouched c s (s.enter other phase) :=
  ⟨phase?_enter_of_ne different phase, fun _ => rfl, Iff.rfl⟩

theorem suspend
    {other : Coroutine}
    (different : c ≠ other)
    (sending : Sending)
    (next : Next) :
    Untouched c s (s.suspend other sending next) := by
  refine ⟨phase?_enter_of_ne different _, fun ws => ?_, Iff.rfl⟩
  simp [snapshotsTo, System.suspend, Ne.symm different]

/-- A continuation touches its actor only, and the tasks it creates. -/
theorem continuation
    {actor : Option Coroutine} {phase : Phase}
    (fits : s.Fits)
    (stands : s.phase? c = some phase)
    (other : actor ≠ some c)
    (moved : Continuation actor s after) :
    Untouched c s after := by
  have different : ∀ {acting}, actor = some acting → c ≠ acting := by
    rintro acting rfl rfl
    exact other rfl
  cases moved with
  | drives _ coroutines _ sent failed =>
      refine ⟨?_, fun ws => ?_, ?_⟩
      · simp only [phase?, coroutines]
      · rw [sent]
      · rw [failed]
  | waits => exact ⟨rfl, fun _ => rfl, Iff.rfl⟩
  | spawns =>
      exact ⟨(fits.phase?_createTask stands).trans stands.symm, fun _ => rfl,
        Iff.rfl⟩
  | operates acts =>
      exact ⟨phase?_enter_of_ne (different acts) _, fun _ => rfl, Iff.rfl⟩
  | begins acts | exhausts acts | rests acts => exact enter (different acts) _
  | sends acts => exact suspend (different acts) _ _
  | fails acts =>
      refine ⟨phase?_enter_of_ne (different acts) _, fun _ => rfl, ?_⟩
      simp [fail, different acts]

theorem opening
    (other : s.actor event ≠ some c)
    (opened : Opening event s after) :
    Untouched c s after := by
  have different : ∀ {acting raised}, event = .resume acting raised →
      c ≠ acting := by
    rintro acting raised rfl rfl
    exact other rfl
  cases opened with
  | rests => exact refl c s
  | wakes resumed => exact suspend (different resumed) _ _
  | drops resumed =>
      exact ⟨phase?_enter_of_ne (different resumed) _, fun _ => rfl, Iff.rfl⟩

end Untouched

/-- A step of another coroutine leaves a coroutine alone. -/
theorem untouched_of_exec
    {phase : Phase}
    (fits : s.Fits)
    (stands : s.phase? c = some phase)
    (other : s.actor event ≠ some c)
    (taken : s.exec event = some after) :
    Untouched c s after := by
  obtain ⟨middle, opened, moved⟩ := moves_of_exec fits taken
  have first := Untouched.opening other opened
  have middleFits := fits.opening opened
  clear taken opened
  induction moved with
  | refl => exact first
  | tail earlier step inductionHypothesis =>
      have standsStill := inductionHypothesis.phase.trans stands
      exact inductionHypothesis.trans (.continuation
        (middleFits.continues earlier) standsStill other step)

/-- Only a resume makes an existing task act. -/
theorem eq_resume_of_actor
    {number : Nat} {phase : Phase}
    (fits : s.Fits)
    (stands : s.phase? (.task number) = some phase)
    (acts : s.actor event = some (.task number)) :
    ∃ raised, event = .resume (.task number) raised := by
  cases event with
  | resume acting raised =>
      obtain rfl := Option.some.inj acts
      exact ⟨raised, rfl⟩
  | fire timer =>
      obtain rfl := Coroutine.task.inj (Option.some.inj acts)
      exact absurd (fits.numbered _ _ stands) (Nat.lt_irrefl _)
  | _ => cases acts

/-! ## The broadcast's own steps -/

variable {number : Nat} {recipients : List WebSocket}

/-- A full-state broadcast is suspended in a send and has these recipients
still before it. -/
def Awaits (s : System) (c : Coroutine) (recipients : List WebSocket) : Prop :=
  ∃ target, s.phase? c =
    some (.sending target true (recipients.map Todo.sendSnapshot) .finish)

/-- How a full-state broadcast goes on with its recipients. -/
inductive GoesOn (s : System) (c : Coroutine) :
    List WebSocket → System → Prop
  | ends : GoesOn s c [] (s.enter c .done)
  | reaches
      {ws : WebSocket} {others : List WebSocket} {message : Message} :
      ws ∈ s.manager.clients →
      message.role?.isSome →
      GoesOn s c (ws :: others)
        (s.suspend c ⟨⟨ws, message⟩, true, others.map Todo.sendSnapshot⟩
          .finish)
  | raises {ws : WebSocket} {others : List WebSocket} :
      ws ∉ s.manager.clients →
      GoesOn s c (ws :: others) (s.fail c)

theorem isSome_role?_of_snapshotFor
    {m : ConnectionManager} {app : AppState} {ws : WebSocket}
    {roleReason : Option RoleReason} {message : Message}
    (built : m.snapshotFor app ws roleReason = .ok message) :
    message.role?.isSome := by
  rw [Message.role?_of_snapshotFor built]
  rfl

theorem goesOn_of_run (number : Nat) (recipients : List WebSocket) :
    s.GoesOn (.task number) recipients
      (s.run (.task number) (recipients.map Todo.sendSnapshot) .finish) := by
  cases recipients with
  | nil => exact .ends
  | cons ws others =>
      by_cases present : ws ∈ s.manager.clients
      · obtain ⟨message, built⟩ := ConnectionManager.snapshotFor_of_mem present
          s.ableton.state none
        have next : s.manager.nextSend s.ableton.state
            ((ws :: others).map Todo.sendSnapshot) =
              .ok (some ⟨⟨ws, message⟩, true,
                others.map Todo.sendSnapshot⟩) := by
          simp only [List.map_cons, ConnectionManager.nextSend,
            ConnectionManager.firstSend, built, bind, Except.bind]
          rfl
        simp only [run, next]
        exact .reaches present (isSome_role?_of_snapshotFor built)
      · have missing : s.manager.snapshotFor s.ableton.state ws none =
            .error ⟨ws⟩ := by
          simp [ConnectionManager.snapshotFor, ConnectionManager.lookup,
            Dict.get?_eq_none_iff.mpr present, bind, Except.bind]
        have next : s.manager.nextSend s.ableton.state
            ((ws :: others).map Todo.sendSnapshot) = .error ⟨ws⟩ := by
          simp only [List.map_cons, ConnectionManager.nextSend,
            ConnectionManager.firstSend, missing, bind, Except.bind]
        simp only [run, next, unwind]
        exact .raises present

/-- A broadcast that is resumed goes on with its next recipient. -/
theorem goesOn_of_resume
    {raised : Bool}
    (awaits : s.Awaits (.task number) recipients)
    (taken : s.exec (.resume (.task number) raised) = some after) :
    s.GoesOn (.task number) recipients after := by
  obtain ⟨target, stands⟩ := awaits
  simp only [exec, resume, stands, not_true_eq_false, and_false,
    if_false] at taken
  split at taken
  · cases taken
  · obtain rfl := Option.some.inj taken
    exact goesOn_of_run number recipients

/-- A broadcast starts with the sockets that are connected then, primary
first; the first one is there. -/
theorem goesOn_of_start
    (stands : s.phase? (.task number) =
      some (.ready [.broadcastFullState] .finish))
    (taken : s.exec (.resume (.task number) false) = some after) :
    s.GoesOn (.task number) s.manager.targets after := by
  simp only [exec, resume, stands, Bool.false_eq_true, if_false,
    Option.some.injEq] at taken
  subst taken
  cases recipients : s.manager.targets with
  | nil =>
      have next : s.manager.nextSend s.ableton.state [.broadcastFullState] =
          .ok none := by
        simp only [ConnectionManager.nextSend, ConnectionManager.firstSend,
          recipients]
      simp only [run, next]
      exact .ends
  | cons ws others =>
      have present : ws ∈ s.manager.clients := by
        rw [← ConnectionManager.mem_targets, recipients]
        exact List.mem_cons_self
      obtain ⟨message, built⟩ := ConnectionManager.snapshotFor_of_mem present
        s.ableton.state none
      have next : s.manager.nextSend s.ableton.state [.broadcastFullState] =
          .ok (some ⟨⟨ws, message⟩, true,
            others.map Todo.sendSnapshot⟩) := by
        simp only [ConnectionManager.nextSend, ConnectionManager.firstSend,
          recipients, built, bind, Except.bind, List.append_nil]
        rfl
      simp only [run, next]
      exact .reaches present (isSome_role?_of_snapshotFor built)

/-! ## Coroutines that have ended -/

/-- A coroutine that has ended does not come back. -/
theorem Continuation.done_persists
    {actor : Option Coroutine}
    (moved : Continuation actor s after)
    (fits : s.Fits)
    (ended : s.phase? c = some .done) :
    after.phase? c = some .done := by
  by_cases own : actor = some c
  · -- Nothing that has ended can move.
    subst own
    cases moved with
    | drives _ coroutines =>
        rw [← ended]
        simp only [phase?, coroutines]
    | waits => exact ended
    | spawns =>
        exact fits.phase?_createTask ended
    | operates acts performs =>
        obtain rfl := Option.some.inj acts
        cases performs with
        | accepted stands | heard stands | released stands | fired stands =>
            rw [ended] at stands
            cases stands
        | left stands live =>
            obtain rfl := Option.some.inj (ended.symm.trans stands)
            exact live.elim
    | begins acts stands | sends acts stands | rests acts stands =>
        obtain rfl := Option.some.inj acts
        rw [ended] at stands
        cases stands
    | exhausts acts stands goesOn =>
        obtain rfl := Option.some.inj acts
        obtain rfl := Option.some.inj (ended.symm.trans stands)
        cases goesOn
    | fails acts stands raises =>
        obtain rfl := Option.some.inj acts
        obtain rfl := Option.some.inj (ended.symm.trans stands)
        cases raises
  · exact (Untouched.continuation fits ended own moved).phase.trans ended

theorem Continuation.failed_subset
    {actor : Option Coroutine}
    (moved : Continuation actor s after) :
    s.failed ⊆ after.failed := by
  cases moved with
  | drives _ _ _ _ failed => exact failed ▸ List.Subset.refl _
  | fails => exact List.subset_append_left _ _
  | _ => exact List.Subset.refl _

/-- Who has ended by raising has ended. -/
theorem Continuation.done_of_failed
    {actor : Option Coroutine}
    (moved : Continuation actor s after)
    (fits : s.Fits)
    (ended : ∀ c ∈ s.failed, s.phase? c = some .done) :
    ∀ c ∈ after.failed, after.phase? c = some .done := by
  intro c failed
  by_cases before : c ∈ s.failed
  · exact moved.done_persists fits (ended c before)
  · cases moved with
    | drives _ _ _ _ same => exact absurd (same ▸ failed) before
    | fails =>
        rcases List.mem_append.mp failed with older | now
        · exact absurd older before
        · rw [List.mem_singleton.mp now]
          exact phase?_enter_self _ _
    | _ => exact absurd failed before

theorem done_of_failed
    (reachable : Reachable exec {} s) :
    ∀ c ∈ s.failed, s.phase? c = some .done := by
  suffices both : s.Fits ∧ ∀ c ∈ s.failed, s.phase? c = some .done from both.2
  refine reachable.invariant
    (fun s => s.Fits ∧ ∀ c ∈ s.failed, s.phase? c = some .done)
    ⟨fits_initial, by simp⟩ ?_
  rintro current event after ⟨fits, ended⟩ taken
  refine ⟨fits.exec taken, ?_⟩
  obtain ⟨middle, opened, moved⟩ := moves_of_exec fits taken
  have middleFits := fits.opening opened
  have opening : ∀ c ∈ middle.failed, middle.phase? c = some .done := by
    cases opened with
    | rests => exact ended
    | wakes _ _ stands goesOn =>
        intro c failed
        refine (phase?_enter_of_ne ?_ _).trans (ended c failed)
        rintro rfl
        obtain rfl := Option.some.inj ((ended _ failed).symm.trans stands)
        cases goesOn
    | drops _ stands =>
        intro c failed
        refine (phase?_enter_of_ne ?_ _).trans (ended c failed)
        rintro rfl
        have impossible := (ended _ failed).symm.trans stands
        cases impossible
  clear taken opened
  induction moved with
  | refl => exact opening
  | tail earlier step inductionHypothesis =>
      exact step.done_of_failed (middleFits.continues earlier)
        inductionHypothesis

theorem failed_persists
    (fits : s.Fits)
    (taken : s.exec event = some after) :
    s.failed ⊆ after.failed := by
  obtain ⟨middle, opened, moved⟩ := moves_of_exec fits taken
  have opening : s.failed ⊆ middle.failed := by
    cases opened <;> exact List.Subset.refl _
  clear taken
  induction moved with
  | refl => exact opening
  | tail _ step inductionHypothesis =>
      exact List.Subset.trans inductionHypothesis step.failed_subset

/-! ## Whole broadcasts -/

/-- The step takes a full-state broadcast to a recipient that has left. -/
def MeetsLeaver (s : System) (c : Coroutine) : Event → Prop
  | .resume acting _ =>
      acting = c ∧ ∃ ws others, s.Awaits c (ws :: others) ∧
        ws ∉ s.manager.clients
  | _ => False

/-- Since `start` the broadcast has sent one snapshot to each of these sockets,
and it has not raised. -/
structure Reached
    (start : System) (c : Coroutine) (reached : List WebSocket)
    (s : System) : Prop where
  once : ∀ ws, (snapshotsTo c ws s.sent).length =
    (snapshotsTo c ws start.sent).length + reached.count ws
  calm : c ∉ s.failed

/-- What is left to a broadcast: the recipients before it, or nothing. -/
def Faces (s : System) (c : Coroutine) (recipients : List WebSocket) : Prop :=
  s.Awaits c recipients ∨ recipients = [] ∧ s.phase? c = some .done

theorem Reached.untouched
    {start : System} {reached : List WebSocket}
    (progress : Reached start c reached s)
    (untouched : Untouched c s after) :
    Reached start c reached after where
  once ws := by rw [untouched.sent, progress.once]
  calm := mt untouched.failed.mp progress.calm

theorem Faces.untouched
    (faces : s.Faces c recipients)
    (untouched : Untouched c s after) :
    after.Faces c recipients := by
  simpa only [Faces, Awaits, untouched.phase] using faces

theorem length_snapshotsTo_suspend
    {socket : WebSocket} {message : Message} {rest : List Todo}
    {next : Next}
    (isState : message.role?.isSome)
    (ws : WebSocket) :
    (snapshotsTo c ws
      (s.suspend c ⟨⟨socket, message⟩, true, rest⟩ next).sent).length =
      (snapshotsTo c ws s.sent).length + [socket].count ws := by
  simp only [snapshotsTo, suspend, List.filter_append, List.length_append]
  by_cases same : socket = ws
  · simp [same, isState]
  · simp [same]

/-- A recipient that is still there is reached. -/
theorem Reached.goesOn
    {start : System} {reached : List WebSocket}
    (progress : Reached start c reached s)
    (goes : s.GoesOn c recipients after)
    (there : ∀ ws others, recipients = ws :: others →
      ws ∈ s.manager.clients) :
    ∃ now later, recipients = now ++ later ∧
      Reached start c (reached ++ now) after ∧ after.Faces c later := by
  cases goes with
  | ends =>
      refine ⟨[], [], rfl, ?_, Or.inr ⟨rfl, phase?_enter_self _ _⟩⟩
      rw [List.append_nil]
      exact ⟨progress.once, progress.calm⟩
  | @reaches ws others message present isState =>
      refine ⟨[ws], others, rfl, ⟨fun other => ?_, progress.calm⟩,
        Or.inl ⟨ws, phase?_enter_self _ _⟩⟩
      rw [length_snapshotsTo_suspend isState, progress.once,
        List.count_append, Nat.add_assoc]
  | raises absent => exact absurd (there _ _ rfl) absent

/-- The broadcast acts in the step. -/
def actsIn (c : Coroutine) (step : Step System Event) : Bool :=
  match step.label with
  | .resume acting _ => acting = c
  | _ => false

theorem actsIn_iff
    {step : Step System Event} :
    actsIn c step = true ↔ ∃ raised, step.label = .resume c raised := by
  unfold actsIn
  split
  · rename_i acting raised resumed
    simp [resumed]
  · rename_i other
    simp only [Bool.false_eq_true, false_iff, not_exists]
    exact fun raised resumed => other c raised resumed

/-- A broadcast that meets nobody who has left reaches its recipients in
turn. -/
theorem Reached.exec
    {start : System} {reached : List WebSocket}
    (progress : Reached start (.task number) reached s)
    (faces : s.Faces (.task number) recipients)
    (fits : s.Fits)
    (taken : s.exec event = some after)
    (kept : ¬s.MeetsLeaver (.task number) event) :
    ∃ now later, recipients = now ++ later ∧
      Reached start (.task number) (reached ++ now) after ∧
      after.Faces (.task number) later := by
  obtain ⟨phase, stands⟩ : ∃ phase, s.phase? (.task number) = some phase := by
    rcases faces with ⟨target, stands⟩ | ⟨_, stands⟩ <;> exact ⟨_, stands⟩
  by_cases acts : s.actor event = some (.task number)
  · obtain ⟨raised, rfl⟩ := eq_resume_of_actor fits stands acts
    rcases faces with awaits | ⟨_, ended⟩
    · refine progress.goesOn (goesOn_of_resume awaits taken) ?_
      rintro ws others rfl
      by_contra absent
      exact kept ⟨rfl, ws, others, awaits, absent⟩
    · simp [System.exec, resume, ended] at taken
  · have untouched := untouched_of_exec fits stands acts taken
    refine ⟨[], recipients, rfl, ?_, faces.untouched untouched⟩
    rw [List.append_nil]
    exact progress.untouched untouched

/-- A broadcast that meets somebody who has left raises. -/
theorem MeetsLeaver.fails
    (meets : s.MeetsLeaver (.task number) event)
    (taken : s.exec event = some after) :
    .task number ∈ after.failed := by
  cases event with
  | resume acting raised =>
      obtain ⟨rfl, ws, others, awaits, absent⟩ := meets
      cases goesOn_of_resume awaits taken with
      | reaches present => exact absurd present absent
      | raises => exact List.mem_append_right _ (List.mem_singleton_self _)
  | _ => exact meets.elim

/-- How many more times a broadcast can act. -/
def Remaining (s : System) (c : Coroutine) (count : Nat) : Prop :=
  (∃ recipients, s.Awaits c recipients ∧ recipients.length + 1 = count) ∨
    s.phase? c = some .done ∧ count = 0

theorem GoesOn.remaining
    (goes : s.GoesOn c recipients after) :
    ∃ count, after.Remaining c count ∧ count ≤ recipients.length := by
  cases goes with
  | ends => exact ⟨0, Or.inr ⟨phase?_enter_self _ _, rfl⟩, Nat.le_refl _⟩
  | reaches =>
      exact ⟨_, Or.inl ⟨_, ⟨_, phase?_enter_self _ _⟩, rfl⟩, Nat.le_refl _⟩
  | raises =>
      exact ⟨0, Or.inr ⟨phase?_enter_self _ _, rfl⟩, Nat.zero_le _⟩

/-- Each time a broadcast acts, less remains for it to do. -/
theorem Remaining.exec
    {count : Nat}
    (remaining : s.Remaining (.task number) count)
    (fits : s.Fits)
    (taken : s.exec event = some after) :
    ∃ later, after.Remaining (.task number) later ∧
      later + (if actsIn (.task number) ⟨s, event, after⟩ then 1 else 0) ≤
        count := by
  obtain ⟨phase, stands⟩ : ∃ phase, s.phase? (.task number) = some phase := by
    rcases remaining with ⟨_, ⟨target, stands⟩, _⟩ | ⟨stands, _⟩ <;>
      exact ⟨_, stands⟩
  by_cases acts : actsIn (.task number) ⟨s, event, after⟩ = true
  · obtain ⟨raised, rfl⟩ := actsIn_iff.mp acts
    rcases remaining with ⟨recipients, awaits, rfl⟩ | ⟨ended, _⟩
    · obtain ⟨later, remains, fewer⟩ :=
        (goesOn_of_resume awaits taken).remaining
      refine ⟨later, remains, ?_⟩
      rw [if_pos acts]
      omega
    · simp [System.exec, resume, ended] at taken
  · have other : s.actor event ≠ some (.task number) := by
      intro same
      obtain ⟨raised, rfl⟩ := eq_resume_of_actor fits stands same
      exact acts (actsIn_iff.mpr ⟨raised, rfl⟩)
    have untouched := untouched_of_exec fits stands other taken
    refine ⟨count, ?_, by simp [acts]⟩
    simpa only [Remaining, Awaits, untouched.phase] using remaining

section Runs

variable {start middle finish : System} {steps : List (Step System Event)}

/-- However a run goes on, a broadcast acts only as often as it can. -/
theorem Remaining.run
    {count : Nat}
    (run : Run System.exec middle steps finish)
    (fits : middle.Fits)
    (remaining : middle.Remaining (.task number) count) :
    steps.countP (actsIn (.task number)) ≤ count := by
  suffices bound : finish.Fits ∧ ∃ left, finish.Remaining (.task number) left ∧
      left + steps.countP (actsIn (.task number)) ≤ count by
    obtain ⟨_, left, _, fewer⟩ := bound
    omega
  refine run.historyInvariant
    (fun past s => s.Fits ∧ ∃ left, s.Remaining (.task number) left ∧
      left + past.countP (actsIn (.task number)) ≤ count)
    ⟨fits, count, remaining, by simp⟩ ?_
  rintro past current event after _ ⟨currentFits, left, remains, fewer⟩ taken
  obtain ⟨later, remainsLater, less⟩ := remains.exec currentFits taken
  refine ⟨currentFits.exec taken, later, remainsLater, ?_⟩
  rw [List.countP_append, List.countP_singleton]
  omega

/-- In a run in which a broadcast meets nobody who has left, it reaches its
recipients in turn. -/
theorem Reached.run
    {reached remaining : List WebSocket}
    (run : Run System.exec middle steps finish)
    (fits : middle.Fits)
    (progress : Reached start (.task number) reached middle)
    (faces : middle.Faces (.task number) remaining)
    (kept : ∀ step ∈ steps,
      ¬step.before.MeetsLeaver (.task number) step.label) :
    ∃ now later, remaining = now ++ later ∧
      Reached start (.task number) (reached ++ now) finish ∧
      finish.Faces (.task number) later := by
  suffices both : finish.Fits ∧ ∃ now later, remaining = now ++ later ∧
      Reached start (.task number) (reached ++ now) finish ∧
      finish.Faces (.task number) later from both.2
  refine run.conditionalInvariant
    (fun s => s.Fits ∧ ∃ now later, remaining = now ++ later ∧
      Reached start (.task number) (reached ++ now) s ∧
      s.Faces (.task number) later)
    (fun s event => ¬s.MeetsLeaver (.task number) event)
    ⟨fits, [], remaining, rfl, by rwa [List.append_nil], faces⟩ ?_ kept
  rintro current event after _ ⟨currentFits, now, later, rfl, before, stands⟩
    calm taken
  obtain ⟨next, rest, rfl, progressed, facesRest⟩ :=
    before.exec stands currentFits taken calm
  refine ⟨currentFits.exec taken, now ++ next, rest, ?_, ?_, facesRest⟩
  · rw [List.append_assoc]
  · rwa [← List.append_assoc]

/-- In a run in which a broadcast meets somebody who has left, it raises. -/
theorem MeetsLeaver.run
    {step : Step System Event}
    (run : Run System.exec start steps finish)
    (fits : start.Fits)
    (member : step ∈ steps)
    (meets : step.before.MeetsLeaver (.task number) step.label) :
    .task number ∈ finish.failed := by
  obtain ⟨past, future, rfl⟩ := List.append_of_mem member
  obtain ⟨pastRun, taken, rest⟩ := run.split
  have beforeFits : step.before.Fits := pastRun.invariant Fits fits
    fun _ _ _ fits taken => fits.exec taken
  have afterFits := beforeFits.exec taken
  suffices both : finish.Fits ∧ .task number ∈ finish.failed from both.2
  refine rest.invariant (fun s => s.Fits ∧ .task number ∈ s.failed)
    ⟨afterFits, meets.fails taken⟩ ?_
  rintro current event after ⟨currentFits, failed⟩ moved
  exact ⟨currentFits.exec moved, failed_persists currentFits moved failed⟩

/-- A full-state broadcast acts at most once more than it has recipients.  When
it has ended, it has run to its end and reached everybody who stayed exactly
once, if and only if it met no recipient that had left. -/
theorem reachesEveryone_iff_not_meetsLeaver
    {first : Step System Event}
    (reachable : Reachable exec {} start)
    (created : start.phase? (.task number) =
      some (.ready [.broadcastFullState] .finish))
    (run : Run exec start (first :: steps) finish)
    (starts : first.label = .resume (.task number) false) :
    (first :: steps).countP (actsIn (.task number)) ≤
        start.manager.targets.length + 1 ∧
      (finish.phase? (.task number) = some .done →
        ((.task number ∉ finish.failed ∧
          ∀ ws ∈ start.manager.clients,
            (∀ step ∈ first :: steps, ws ∈ step.after.manager.clients) →
            (snapshotsTo (.task number) ws finish.sent).length =
              (snapshotsTo (.task number) ws start.sent).length + 1) ↔
          ∀ step ∈ first :: steps,
            ¬step.before.MeetsLeaver (.task number) step.label)) := by
  have fits := fits_of_reachable reachable
  obtain ⟨⟨same, taken⟩, rest⟩ := run.uncons
  rw [same, starts] at taken
  have goes := goesOn_of_start created taken
  have laterFits := fits.exec taken
  have calm : .task number ∉ start.failed := by
    intro failed
    have ended := done_of_failed reachable _ failed
    rw [created] at ended
    cases ended
  refine ⟨?_, fun ended => ⟨?_, fun kept => ?_⟩⟩
  · obtain ⟨count, remaining, few⟩ := goes.remaining
    have later := remaining.run rest laterFits
    have once : actsIn (.task number) first = true :=
      actsIn_iff.mpr ⟨false, starts⟩
    rw [List.countP_cons_of_pos once]
    omega
  · rintro ⟨unfailed, _⟩ step member meets
    exact unfailed (meets.run run fits member)
  · have nobody : Reached start (.task number) [] start := ⟨by simp, calm⟩
    have there : ∀ ws others, start.manager.targets = ws :: others →
        ws ∈ start.manager.clients := by
      intro ws others recipients
      rw [← ConnectionManager.mem_targets, recipients]
      exact List.mem_cons_self
    obtain ⟨now, later, whole, progress, faces⟩ := nobody.goesOn goes there
    obtain ⟨next, left, rfl, reached, facesLeft⟩ :=
      progress.run rest laterFits faces fun step member =>
        kept step (List.mem_cons_of_mem first member)
    rcases facesLeft with ⟨target, stands⟩ | ⟨rfl, _⟩
    · rw [ended] at stands
      cases stands
    · refine ⟨reached.calm, fun ws present _ => ?_⟩
      rw [List.append_nil] at whole
      rw [reached.once, List.nil_append, ← whole]
      have member := ConnectionManager.mem_targets.mpr present
      rw [List.count_eq_one_of_mem (ConnectionManager.nodup_targets _) member]

end Runs

/-- Three devices are connected, and the markers have just changed. -/
private def markersChange : List Event :=
  [.accept ⟨0⟩ {} "c0"] ++ resumes (.handler ⟨0⟩) 2 ++
    [.accept ⟨1⟩ {} "c1"] ++ resumes (.handler ⟨1⟩) 3 ++
    [.accept ⟨2⟩ {} "c2"] ++ resumes (.handler ⟨2⟩) 4 ++
    [.ableton (.datagram 0 AbletonBridge.cuePointsAddress
      (AbletonBridge.oneCueReply "== A ==" 0))]

/-- The second device leaves after its turn. -/
private def leavesAfterTurn : List Event :=
  .resume (.task 0) false ::
    (resumes (.task 0) 1 ++ [.peerGone ⟨1⟩, .hangUp ⟨1⟩] ++
      resumes (.task 0) 2)

private def meetsNobodyGone (step : Step System Event) : Bool :=
  match step.before.phase? (.task 0) with
  | some (.sending _ _ (.sendSnapshot ws :: _) _) =>
      ws ∈ step.before.manager.clients
  | _ => true

private theorem not_meetsLeaver
    {step : Step System Event}
    (clear : meetsNobodyGone step = true) :
    ¬step.before.MeetsLeaver (.task 0) step.label := by
  intro meets
  unfold MeetsLeaver at meets
  split at meets
  · obtain ⟨_, ws, others, ⟨target, stands⟩, absent⟩ := meets
    simp only [meetsNobodyGone, stands, List.map_cons,
      decide_eq_true_eq] at clear
    exact absent clear
  · exact meets

/-- The third device is reached, although the second one has left. -/
theorem reachesEveryone_iff_not_meetsLeaver_leavesAfterTurn :
    ∃ start steps finish, execAll exec {} markersChange = some start ∧
      replay exec start leavesAfterTurn = some (steps, finish) ∧
      (⟨1⟩ : WebSocket) ∉ finish.manager.clients ∧
      (⟨2⟩ : WebSocket) ∈ start.manager.clients ∧
      .task 0 ∉ finish.failed ∧
      (snapshotsTo (.task 0) ⟨2⟩ finish.sent).length =
        (snapshotsTo (.task 0) ⟨2⟩ start.sent).length + 1 := by
  have runs : ((execAll exec {} markersChange).bind fun start =>
      (replay exec start leavesAfterTurn).map fun result =>
        decide (start.phase? (.task 0) =
            some (.ready [.broadcastFullState] .finish) ∧
          (⟨1⟩ : WebSocket) ∉ result.2.manager.clients ∧
          (⟨2⟩ : WebSocket) ∈ start.manager.clients ∧
          result.2.phase? (.task 0) = some .done) &&
        result.1.all fun step => meetsNobodyGone step &&
          decide ((⟨2⟩ : WebSocket) ∈ step.after.manager.clients)) =
      some true := by
    decide +kernel
  obtain ⟨start, executed, later⟩ := Option.bind_eq_some_iff.mp runs
  obtain ⟨⟨steps, finish⟩, replayed, facts⟩ := Option.map_eq_some_iff.mp later
  rw [Bool.and_eq_true, decide_eq_true_eq, List.all_eq_true] at facts
  obtain ⟨⟨created, gone, present, ended⟩, clear⟩ := facts
  obtain ⟨first, rest, rfl, starts, _⟩ :=
    List.map_eq_cons_iff.mp (labels_of_replay replayed)
  have complete := (reachesEveryone_iff_not_meetsLeaver
    (reachable_of_execAll executed) created (run_of_replay replayed)
    starts).2 ended
  have stays := fun step member =>
    Bool.and_eq_true_iff.mp (clear step member)
  have reaches := complete.mpr fun step member =>
    not_meetsLeaver (stays step member).1
  exact ⟨start, first :: rest, finish, executed, replayed, gone, present,
    reaches.1, reaches.2 ⟨2⟩ present fun step member =>
      of_decide_eq_true (stays step member).2⟩

/-- The second device leaves while the snapshot for the first one is being
sent. -/
private def leavesBeforeTurn : List Event :=
  [.resume (.task 0) false, .peerGone ⟨1⟩, .hangUp ⟨1⟩,
    .resume (.task 0) false]

/-- The broadcast raises, and the third device is sent nothing. -/
theorem not_reachesEveryone_of_leavesBeforeTurn :
    ∃ start steps finish, execAll exec {} markersChange = some start ∧
      start.phase? (.task 0) =
        some (.ready [.broadcastFullState] .finish) ∧
      replay exec start leavesBeforeTurn = some (steps, finish) ∧
      finish.phase? (.task 0) = some .done ∧
      .task 0 ∈ finish.failed ∧
      (⟨2⟩ : WebSocket) ∈ start.manager.clients ∧
      (∀ step ∈ steps, (⟨2⟩ : WebSocket) ∈ step.after.manager.clients) ∧
      snapshotsTo (.task 0) ⟨2⟩ finish.sent = [] := by
  have runs : ((execAll exec {} markersChange).bind fun start =>
      (replay exec start leavesBeforeTurn).map fun result =>
        decide (start.phase? (.task 0) =
            some (.ready [.broadcastFullState] .finish) ∧
          result.2.phase? (.task 0) = some .done ∧
          .task 0 ∈ result.2.failed ∧
          (⟨2⟩ : WebSocket) ∈ start.manager.clients ∧
          (∀ step ∈ result.1,
            (⟨2⟩ : WebSocket) ∈ step.after.manager.clients) ∧
          snapshotsTo (.task 0) ⟨2⟩ result.2.sent = [])) = some true := by
    decide +kernel
  obtain ⟨start, executed, later⟩ := Option.bind_eq_some_iff.mp runs
  obtain ⟨⟨steps, finish⟩, replayed, facts⟩ := Option.map_eq_some_iff.mp later
  obtain ⟨created, ended, failed, present, stays, nothing⟩ :=
    of_decide_eq_true facts
  exact ⟨start, steps, finish, executed, created, replayed, ended, failed,
    present, stays, nothing⟩

end System
end AbletonTracks
