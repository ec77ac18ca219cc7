import AbletonTracks.Server.Moves

/-!
# Every step of the server is made of moves

`moves_of_exec` is the inversion rule that the invariants of the server rest
on; no later proof unfolds a handler.  With it the server refines the manager:
in every reachable state of the server the manager is in a state that its own
machine reaches.
-/

namespace AbletonTracks

open Library

namespace System

variable {s after : System} {c : Coroutine} {event : Event}
  {actor : Option Coroutine}

/-! ## Effects of the bridge -/

theorem perform_continues (origin : Option WebSocket) (effect : Effect) :
    Continues actor s (s.perform origin effect) := by
  cases effect with
  | send command => exact .single (.drives rfl rfl (Nat.le_refl _) rfl rfl)
  | stateChange => exact .single (.spawns (Or.inl rfl))
  | positionUpdate | tracksChange | meterUpdate =>
      refine .single (.spawns (Or.inr ⟨_, ?_, rfl⟩))
      trivial

theorem performAll_continues
    (origin : Option WebSocket)
    (effects : List Effect) :
    Continues actor s (s.performAll origin effects) := by
  induction effects generalizing s with
  | nil => exact .refl
  | cons effect rest inductionHypothesis =>
      exact (perform_continues origin effect).trans inductionHypothesis

/-- Commands to Ableton change nothing but their log. -/
theorem performAll_of_sends
    (origin : Option WebSocket)
    (effects : List Effect)
    (onlySends : ∀ effect ∈ effects, ∃ command, effect = .send command) :
    ∃ commands,
      s.performAll origin effects = { s with commands := commands } := by
  induction effects generalizing s with
  | nil => exact ⟨s.commands, rfl⟩
  | cons effect rest inductionHypothesis =>
      obtain ⟨command, rfl⟩ := onlySends effect List.mem_cons_self
      obtain ⟨commands, same⟩ := inductionHypothesis
        (s := s.perform origin (.send command)) fun other member =>
          onlySends other (List.mem_cons_of_mem _ member)
      exact ⟨commands, same⟩

/-- A fetch of the song's data only sends. -/
theorem performAll_refresh (s : System) (origin : Option WebSocket) :
    ∃ commands, s.performAll origin AbletonBridge.refresh =
      { s with commands := commands } :=
  performAll_of_sends origin _
    (by simp [AbletonBridge.refresh, AbletonBridge.fetchTracks])

/-- Only a full-state broadcast meets sockets that have left. -/
theorem Fits.task_of_raises
    {phase : Phase} {raised : KeyError}
    (fits : s.Fits)
    (stands : s.phase? c = some phase)
    (raises : s.manager.nextSend s.ableton.state phase.todo =
      .error raised) :
    ∃ number, c = .task number := by
  obtain ⟨entry, member, failed⟩ := ConnectionManager.nextSend_eq_error raises
  have proper := (fits.phases _ _ stands).proper entry member
  obtain ⟨ws, absent, rfl | rfl⟩ :=
    ConnectionManager.unguarded_of_firstSend_eq_error failed
  · obtain ⟨rfl, receives⟩ := proper
    refine absurd (fits.connected stands ?_) absent
    cases phase with
    | ready | sending =>
        obtain rfl := Option.some.inj receives
        simp [Phase.Live]
    | receiving | done => cases receives
  · exact proper

/-- Whatever does more than finish is a handler. -/
theorem Fits.handler_of_next?
    {phase : Phase} {next : Next}
    (fits : s.Fits)
    (stands : s.phase? c = some phase)
    (goesOn : phase.next? = some next)
    (more : next ≠ .finish) :
    ∃ ws, c = .handler ws := by
  cases c with
  | handler ws => exact ⟨ws, rfl⟩
  | task number =>
      rcases (fits.phases _ _ stands).task number rfl with rfl | finishes
      · cases goesOn
      · exact absurd (Option.some.inj (goesOn.symm.trans finishes)) more

/-- No send of a handler raises `KeyError`. -/
theorem Fits.nextSend_ne_error
    {ws : WebSocket} {phase : Phase}
    (fits : s.Fits)
    (stands : s.phase? (.handler ws) = some phase)
    (raised : KeyError) :
    s.manager.nextSend s.ableton.state phase.todo ≠ .error raised := by
  intro raises
  obtain ⟨number, impossible⟩ := fits.task_of_raises stands raises
  cases impossible

section

variable {todo : List Todo} {next : Next}

theorem runLast_continues
    (fits : (s.enter c (.ready todo .finish)).Fits)
    (fresh : ∀ ws message, .deliver ws message ∉ todo) :
    Continues (some c) (s.enter c (.ready todo .finish))
      (s.runLast c todo) := by
  have stands := s.phase?_enter_self c (.ready todo .finish)
  unfold runLast
  cases found : s.manager.nextSend s.ableton.state todo with
  | error raised =>
      obtain ⟨number, rfl⟩ := fits.task_of_raises stands found
      have failed : Continuation (some (.task number)) _ _ :=
        .fails rfl stands found
      rw [fail_enter] at failed
      exact .single failed
  | ok sending? =>
      cases sending? with
      | none =>
          have rested : Continuation (some c) _ _ :=
            .rests rfl (s.phase?_enter_self c (.ready [] .finish)) .done
          have exhausted : Continuation (some c) _ _ :=
            .exhausts rfl stands rfl found
          rw [enter_enter] at rested exhausted
          exact .head exhausted (.single rested)
      | some sending =>
          have sent : Continuation (some c) _ _ :=
            .sends rfl stands fresh found
          rw [suspend_enter] at sent
          exact .single sent

/-- No to-do list of an operation has a text that was fixed before. -/
theorem fresh_of_transition
    {m after : ConnectionManager} {op : Op}
    (branch : m.Transition op after todo) :
    ∀ ws message, .deliver ws message ∉ todo :=
  fun ws message member => branch.safe (.deliver ws message) member

/-- A handler with nothing left to do leaves. -/
theorem unwind_continues
    {ws : WebSocket} {phase : Phase}
    (fits : s.Fits)
    (stands : s.phase? (.handler ws) = some phase)
    (live : phase.Live)
    (idle : phase.todo = []) :
    Continues (some (.handler ws)) s (s.unwind (.handler ws)) := by
  have performs := Performs.left stands live idle
  obtain ⟨m, todo, applied⟩ :=
    ConnectionManager.apply_isOk fits.roles (performs.enabled fits)
  refine .head (.operates rfl performs applied) ?_
  simp only [unwind, applied]
  exact runLast_continues (s := { s with manager := m })
    (fits.operates performs applied)
    (fresh_of_transition (ConnectionManager.transition_of_apply applied))

/-- The phase of a handler does not matter to its `finally`. -/
@[simp] theorem unwind_enter (c : Coroutine) (phase : Phase) :
    (s.enter c phase).unwind c = s.unwind c := by
  cases c with
  | task number => exact fail_enter _ _
  | handler ws =>
      simp only [unwind, enter_manager]
      split
      · exact fail_enter _ _
      · rename_i m todo _
        have same : { s.enter (.handler ws) phase with manager := m } =
            ({ s with manager := m } : System).enter (.handler ws) phase := rfl
        rw [same]
        simp only [runLast, enter_manager, enter_ableton, enter_enter,
          suspend_enter, fail_enter]

/-- The second half of a jump concerns Ableton only. -/
theorem land_eq (ws : WebSocket) (jump : Jump) :
    ∃ ableton commands,
      s.land ws jump = { s with ableton := ableton, commands := commands } := by
  have fires : ∀ effect ∈
      (s.ableton.fireCueClipForSection jump.target.name).2,
      ∃ command, effect = .send command := by
    intro effect member
    unfold AbletonBridge.fireCueClipForSection at member
    split at member
    · cases member
    · exact ⟨_, List.mem_singleton.mp member⟩
  simp only [land]
  split
  · obtain ⟨commands, same⟩ := performAll_of_sends
      (s := s) (some ws) _ fires
    rw [same]
    exact ⟨_, commands, rfl⟩
  · obtain ⟨commands, same⟩ := performAll_of_sends
      (s := s) (some ws) (AbletonBridge.jumpToCueIndex jump.target.cueIndex)
      fun effect member => ⟨_, List.mem_singleton.mp member⟩
    rw [same]
    exact ⟨_, commands, rfl⟩

theorem conclude_continues
    (fits : (s.enter c (.ready [] next)).Fits) :
    Continues (some c) (s.enter c (.ready [] next)) (s.conclude c next) := by
  have stands := s.phase?_enter_self c (.ready [] next)
  have isHandler : next ≠ .finish → ∃ ws, c = .handler ws :=
    fits.handler_of_next? stands rfl
  have rested : ∀ {phase}, Rests c next phase →
      Continuation (some c) (s.enter c (.ready [] next)) (s.enter c phase) := by
    intro phase resting
    have moved : Continuation (some c) _ _ := .rests rfl stands resting
    rwa [enter_enter] at moved
  cases next with
  | finish => exact .single (rested .done)
  | receive =>
      obtain ⟨ws, rfl⟩ := isHandler (by simp)
      exact .single (rested .receiving)
  | leave =>
      obtain ⟨ws, rfl⟩ := isHandler (by simp)
      have moved := unwind_continues fits stands (by simp [Phase.Live]) rfl
      rwa [unwind_enter] at moved
  | land jump =>
      obtain ⟨ws, rfl⟩ := isHandler (by simp)
      obtain ⟨ableton, commands, same⟩ := s.land_eq ws jump
      refine .head (rested .landed) (.single ?_)
      simp only [conclude, same]
      exact .drives rfl rfl (Nat.le_refl _) rfl rfl

theorem run_continues
    (fits : (s.enter c (.ready todo next)).Fits)
    (fresh : ∀ ws message, .deliver ws message ∉ todo) :
    Continues (some c) (s.enter c (.ready todo next))
      (s.run c todo next) := by
  have stands := s.phase?_enter_self c (.ready todo next)
  unfold run
  cases found : s.manager.nextSend s.ableton.state todo with
  | error raised =>
      obtain ⟨number, rfl⟩ := fits.task_of_raises stands found
      have failed : Continuation (some (.task number)) _ _ :=
        .fails rfl stands found
      rw [fail_enter] at failed
      exact .single failed
  | ok sending? =>
      cases sending? with
      | none =>
          have exhausted : Continuation (some c) _ _ :=
            .exhausts rfl stands rfl found
          have concluded := conclude_continues (s := s)
            (by simpa using fits.continuation exhausted)
          rw [enter_enter] at exhausted
          exact .head exhausted concluded
      | some sending =>
          have sent : Continuation (some c) _ _ :=
            .sends rfl stands fresh found
          rw [suspend_enter] at sent
          exact .single sent

theorem operate_continues
    {op : Op}
    (fits : s.Fits)
    (performs : s.Performs c op next) :
    Continues (some c) s (s.operate c op next) := by
  obtain ⟨m, todo, applied⟩ :=
    ConnectionManager.apply_isOk fits.roles (performs.enabled fits)
  refine .head (.operates rfl performs applied) ?_
  simp only [operate, applied]
  exact run_continues (s := { s with manager := m })
    (fits.operates performs applied)
    (fresh_of_transition (ConnectionManager.transition_of_apply applied))

end

/-- A handler that was waiting for a message starts to send. -/
theorem begin_continues
    {ws : WebSocket} {entry : Todo} {next : Next}
    (fits : s.Fits)
    (stands : s.phase? (.handler ws) = some .receiving)
    (begun : Begins ws entry next) :
    Continues (some (.handler ws)) s (s.run (.handler ws) [entry] next) := by
  have moved : Continuation (some (.handler ws)) s _ :=
    .begins rfl stands begun
  refine .head moved (run_continues (fits.continuation moved) ?_)
  intro other message member
  cases begun <;> simp at member

theorem loopFor_sends
    {target : Section} {effect : Effect}
    (member : effect ∈ loopFor target) :
    ∃ command, effect = .send command := by
  have released : effect ∈ AbletonBridge.disableLoop →
      ∃ command, effect = .send command :=
    fun member => ⟨_, List.mem_singleton.mp member⟩
  unfold loopFor at member
  split at member
  · split at member
    · simp only [AbletonBridge.setLoopRegion, List.mem_cons,
        List.not_mem_nil, or_false] at member
      rcases member with rfl | rfl | rfl <;> exact ⟨_, rfl⟩
    · exact released member
  · exact released member

theorem handleJump_continues
    {ws : WebSocket}
    (fits : s.Fits)
    (stands : s.phase? (.handler ws) = some .receiving)
    (songIndex sectionIndex : Option Int) :
    Continues (some (.handler ws)) s
      (s.handleJump ws songIndex sectionIndex) := by
  unfold handleJump
  split
  · split
    · exact .refl
    · rename_i songIndex sectionIndex _ target _
      generalize jumpTo s.ableton.state target = jump
      obtain ⟨commands, same⟩ := performAll_of_sends
        (s := s.queue songIndex sectionIndex jump) (some ws)
        (loopFor target) fun effect member => loopFor_sends member
      refine .head (b := { s.queue songIndex sectionIndex jump with
        commands := commands }) (.drives rfl rfl (Nat.le_refl _) rfl rfl) ?_
      simp only [same]
      refine begin_continues (fits.congr rfl rfl (Nat.le_refl _)) stands
        (.jump ?_)
      trivial
  · exact .refl

theorem stop_continues (ws : WebSocket) :
    Continues actor s (s.stop ws) := by
  obtain ⟨commands, same⟩ := performAll_of_sends
    (s := s) (some ws) AbletonBridge.stopPlayback
    fun effect member => ⟨_, List.mem_singleton.mp member⟩
  simp only [stop, same]
  exact .single (.drives rfl rfl (Nat.le_refl _) rfl rfl)

theorem obey_continues
    {ws : WebSocket}
    (fits : s.Fits)
    (stands : s.phase? (.handler ws) = some .receiving)
    (primary : s.manager.primary = some ws)
    (message : ClientMessage) :
    Continues (some (.handler ws)) s (s.obey ws message) := by
  cases message with
  | jump songIndex sectionIndex =>
      exact handleJump_continues fits stands songIndex sectionIndex
  | muteTrack trackIndex muted =>
      cases trackIndex with
      | none => exact unwind_continues fits stands trivial rfl
      | some index =>
          simp only [obey]
          split
          · exact .refl
          · split
            · exact performAll_continues _ _
            · exact unwind_continues fits stands trivial rfl
  | play | generateCues => exact performAll_continues _ _
  | stop => exact stop_continues ws
  | releaseControl =>
      exact operate_continues fits (.released stands primary)
  | respondControl | grantControl =>
      refine operate_continues fits (.heard stands ?_)
      exact rfl
  | _ => exact .refl

theorem hear_continues
    {ws : WebSocket}
    (fits : s.Fits)
    (stands : s.phase? (.handler ws) = some .receiving)
    (message : ClientMessage) :
    Continues (some (.handler ws)) s (s.hear ws message) := by
  have obeyed : Continues (some (.handler ws)) s
      (if s.manager.isPrimary ws then s.obey ws message else s) := by
    split
    · rename_i primary
      exact obey_continues fits stands
        (by simpa [ConnectionManager.isPrimary] using primary) message
    · exact .refl
  cases message with
  | badJson => exact .refl
  | notAnObject => exact unwind_continues fits stands trivial rfl
  | refresh =>
      obtain ⟨commands, same⟩ := s.performAll_refresh (some ws)
      simp only [hear, same]
      refine .head (b := { s with commands := commands })
        (.drives rfl rfl (Nat.le_refl _) rfl rfl) ?_
      exact begin_continues (fits.congr rfl rfl (Nat.le_refl _)) stands
        .refresh
  | register | requestControl =>
      refine operate_continues fits (.heard stands ?_)
      exact rfl
  | cancelControlRequest =>
      change Continues _ s
        (s.operate (.handler ws) (.cancelRequest ws) .receive)
      exact operate_continues fits (.heard stands rfl)
  | _ => exact obeyed

/-- A frame reaches a handler that waits for one. -/
theorem hear_of_receive
    {ws : WebSocket} {message : ClientMessage}
    (taken : s.exec (.receive ws message) = some after) :
    s.phase? (.handler ws) = some .receiving ∧ s.hear ws message = after := by
  simp only [exec] at taken
  split at taken
  · rename_i stands
    exact ⟨stands, Option.some.inj taken⟩
  · cases taken

/-- The primary's jump is handled. -/
theorem handleJump_of_receive
    {ws : WebSocket} {songIndex sectionIndex : Option Int}
    (taken : s.exec (.receive ws (.jump songIndex sectionIndex)) = some after)
    (primary : s.manager.primary = some ws) :
    s.phase? (.handler ws) = some .receiving ∧
      s.handleJump ws songIndex sectionIndex = after := by
  obtain ⟨stands, heard⟩ := hear_of_receive taken
  refine ⟨stands, ?_⟩
  rw [← heard]
  exact (if_pos (by simp [ConnectionManager.isPrimary, primary])).symm

/-- How a coroutine that is resumed goes on. -/
inductive Resumes (s : System) (c : Coroutine) (raised : Bool) :
    System → Prop
  /-- It runs its to-do list. -/
  | runs {phase : Phase} {next : Next} :
      s.phase? c = some phase →
      phase.next? = some next →
      ¬phase.Unwinds raised →
      Resumes s c raised (s.run c phase.todo next)
  /-- The send raised and nothing catches it. -/
  | unwinds {ws : WebSocket} {rest : List Todo} {next : Next} :
      raised = true →
      s.phase? c = some (.sending ws false rest next) →
      Resumes s c raised (s.unwind c)

theorem resumes_of_resume
    {raised : Bool}
    (taken : s.resume c raised = some after) :
    s.Resumes c raised after := by
  unfold resume at taken
  split at taken
  · rename_i todo next stands
    split at taken
    · cases taken
    · obtain rfl := Option.some.inj taken
      exact .runs stands rfl id
  · rename_i ws guarded rest next stands
    split at taken
    · cases taken
    · split at taken
      · rename_i raises
        obtain rfl := Option.some.inj taken
        obtain rfl := Bool.eq_false_iff.mpr raises.2
        exact .unwinds raises.1 stands
      · rename_i caught
        obtain rfl := Option.some.inj taken
        refine .runs stands rfl ?_
        rintro ⟨raises, unguarded⟩
        exact caught ⟨raises, by simp [unguarded]⟩
  · cases taken

/-- A coroutine in which nothing is raised runs its to-do list. -/
theorem eq_run_of_resume
    {raised : Bool} {phase : Phase}
    (taken : s.resume c raised = some after)
    (stands : s.phase? c = some phase)
    (caught : ¬phase.Unwinds raised) :
    ∃ next, phase.next? = some next ∧ after = s.run c phase.todo next := by
  cases resumes_of_resume taken with
  | runs stood goesOn _ =>
      obtain rfl := Option.some.inj (stands.symm.trans stood)
      exact ⟨_, goesOn, rfl⟩
  | unwinds raises stood =>
      obtain rfl := Option.some.inj (stands.symm.trans stood)
      exact absurd ⟨raises, rfl⟩ caught

/-- A coroutine that goes on and has something to send sends it. -/
theorem resume_eq_suspend
    {raised : Bool} {phase : Phase} {sending : Sending}
    (taken : s.resume c raised = some after)
    (caught : ¬phase.Unwinds raised)
    (stands : s.phase? c = some phase)
    (found : s.manager.nextSend s.ableton.state phase.todo =
      .ok (some sending)) :
    ∃ next, phase.next? = some next ∧ after = s.suspend c sending next := by
  obtain ⟨next, goesOn, rfl⟩ := eq_run_of_resume taken stands caught
  refine ⟨next, goesOn, ?_⟩
  simp only [run, found]

/-- Only a handler sends without a guard, and it would read on. -/
theorem Fits.handler_of_unguarded
    {ws : WebSocket} {rest : List Todo} {next : Next}
    (fits : s.Fits)
    (stands : s.phase? c = some (.sending ws false rest next)) :
    next = .receive ∧ ∃ owner, c = .handler owner := by
  obtain rfl := (fits.phases _ _ stands).unguarded _ _ _ rfl
  exact ⟨rfl, fits.handler_of_next? stands rfl (by simp)⟩

theorem resume_moves
    {raised : Bool}
    (fits : s.Fits)
    (taken : s.resume c raised = some after) :
    ∃ middle, Opening (.resume c raised) s middle ∧
      Continues (some c) middle after := by
  cases resumes_of_resume taken with
  | @runs phase next stands goesOn caught =>
      unfold run
      cases found : s.manager.nextSend s.ableton.state phase.todo with
      | error raised =>
          obtain ⟨number, rfl⟩ := fits.task_of_raises stands found
          exact ⟨s, .rests, .single (.fails rfl stands found)⟩
      | ok sending? =>
          cases sending? with
          | none =>
              have exhausted : Continuation (some c) _ _ :=
                .exhausts rfl stands goesOn found
              exact ⟨s, .rests, .head exhausted
                (conclude_continues (fits.continuation exhausted))⟩
          | some sending =>
              exact ⟨_, .wakes rfl caught stands goesOn found, .refl⟩
  | @unwinds ws rest next raises stands =>
      obtain ⟨rfl, owner, rfl⟩ := fits.handler_of_unguarded stands
      obtain rfl := raises
      have live : (Phase.sending ws false rest .receive).Live := by
        simp [Phase.Live]
      have enabled : s.manager.Enabled (.disconnect owner) :=
        fits.connected stands live
      obtain ⟨m, todo, applied⟩ :=
        ConnectionManager.apply_isOk fits.roles enabled
      refine ⟨_, .drops rfl stands applied, ?_⟩
      simp only [unwind, applied]
      exact runLast_continues (s := { s with manager := m })
        (fits.disconnects stands live applied)
        (fresh_of_transition (ConnectionManager.transition_of_apply applied))

/-- Every step of the server is an opening and its continuations. -/
theorem moves_of_exec
    (fits : s.Fits)
    (taken : s.exec event = some after) :
    ∃ middle, Opening event s middle ∧
      Continues (s.actor event) middle after := by
  cases event with
  | accept ws params connectionId =>
      simp only [exec] at taken
      split at taken
      · rename_i fresh
        obtain rfl := Option.some.inj taken
        obtain ⟨commands, same⟩ := s.performAll_refresh (some ws)
        rw [same]
        refine ⟨s, .rests, .head (b := { s with commands := commands })
          (.drives rfl rfl (Nat.le_refl _) rfl rfl) ?_⟩
        exact operate_continues (fits.congr rfl rfl (Nat.le_refl _))
          (.accepted fresh)
      · cases taken
  | receive ws message =>
      obtain ⟨stands, rfl⟩ := hear_of_receive taken
      exact ⟨s, .rests, hear_continues fits stands message⟩
  | hangUp ws =>
      simp only [exec] at taken
      split at taken
      · rename_i both
        obtain rfl := Option.some.inj taken
        exact ⟨s, .rests, unwind_continues fits both.1 trivial rfl⟩
      · cases taken
  | resume c raised => exact resume_moves fits taken
  | fire timer =>
      simp only [exec, fire] at taken
      split at taken
      · cases taken
      · rename_i sleeping found
        split at taken
        · obtain rfl := Option.some.inj taken
          refine ⟨s, .rests, .head (b := { s with nextTask := s.nextTask + 1 })
            (.drives rfl rfl (Nat.le_succ _) rfl rfl) ?_⟩
          refine operate_continues (fits.congr rfl rfl (Nat.le_succ _))
            (.fired fits.fresh (Nat.lt_succ_self _) ?_)
          simp [found]
        · cases taken
  | peerGone ws =>
      obtain rfl := Option.some.inj taken
      exact ⟨s, .rests, .single (.drives rfl rfl (Nat.le_refl _) rfl rfl)⟩
  | wait time =>
      simp only [exec] at taken
      split at taken
      · obtain rfl := Option.some.inj taken
        exact ⟨s, .rests, .single .waits⟩
      · cases taken
  | ableton event =>
      simp only [exec] at taken
      obtain rfl := Option.some.inj taken
      refine ⟨s, .rests, .head (b := { s with
        ableton := (s.ableton.handle event).1 })
        (.drives rfl rfl (Nat.le_refl _) rfl rfl) ?_⟩
      exact performAll_continues _ _

theorem Fits.exec
    (fits : s.Fits)
    (taken : s.exec event = some after) :
    after.Fits := by
  obtain ⟨middle, opened, moved⟩ := moves_of_exec fits taken
  exact (fits.opening opened).continues moved

/-- In every reachable state of the server the manager is in a state that its
own machine reaches. -/
theorem fits_of_reachable
    (reachable : Reachable System.exec {} s) :
    s.Fits :=
  reachable.invariant Fits fits_initial
    fun _ _ _ fits taken => fits.exec taken

end System
end AbletonTracks
