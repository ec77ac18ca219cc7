import AbletonTracks.Server.Quiet

/-!
# Devices that are left behind

A device is left behind by two kinds of step: a broadcast that hands it an
older text after the newer one, and a full-state broadcast that raises at a
socket that has left while the device still waits for its turn.  In every run
every device is told the songs and the transport, or somebody is still going
to tell it, exactly if no step is of these kinds.
-/

namespace AbletonTracks

open Library

namespace Fact

variable {α : Type} {fact : Fact α} {value : α} {s after finish : System}
  {c : Coroutine} {ws : WebSocket} {phase : Phase} {next : Next}
  {sending : Sending} {event : System.Event}
  {steps : List (Step System System.Event)}

/-! ## One step -/

/-- A broadcast hands a device an older text, and nobody is still going to tell
that device what holds. -/
def Outdates (fact : Fact α) (s : System) (event : System.Event) : Prop :=
  ∃ c raised phase sending shown,
    event = .resume c raised ∧ ¬phase.Unwinds raised ∧
    s.phase? c = some phase ∧
    s.manager.nextSend s.ableton.state phase.todo = .ok (some sending) ∧
    fact.shown sending.frame.message = some shown ∧
    sending.frame.socket ∈ s.manager.clients ∧
    ¬s.Leaving sending.frame.socket ∧
    shown ≠ fact.current s.ableton.state ∧
    (∀ left ∈ sending.rest, ¬fact.Promises (fact.current s.ableton.state) c
      sending.frame.socket left) ∧
    ∀ other, other ≠ c →
      ¬fact.Owes (fact.current s.ableton.state) s other sending.frame.socket

/-- A full-state broadcast raises at a socket that has left, and a device that
does not know what holds has nobody else to tell it. -/
def Abandons (fact : Fact α) (s : System) (event : System.Event) : Prop :=
  ∃ number raised phase key ws,
    event = .resume (.task number) raised ∧
    s.phase? (.task number) = some phase ∧
    s.manager.nextSend s.ableton.state phase.todo = .error key ∧
    ws ∈ s.manager.clients ∧ ¬s.Leaving ws ∧
    fact.told s ws ≠ some (fact.current s.ableton.state) ∧
    ∀ other, other ≠ .task number →
      ¬fact.Owes (fact.current s.ableton.state) s other ws

/-- The step leaves a device behind. -/
def Misleads (fact : Fact α) (s : System) (event : System.Event) : Prop :=
  fact.Outdates s event ∨ fact.Abandons s event

/-- A handler can only owe its own socket. -/
theorem not_owes_of_handler
    {owner : WebSocket}
    (fits : s.Fits)
    (different : ws ≠ owner) :
    ¬fact.Owes value s (.handler owner) ws := by
  rintro ⟨phase, stands, entry, member, promises⟩
  have proper := (fits.phases _ _ stands).proper entry member
  cases entry with
  | broadcastFullState | sendSnapshot =>
      obtain ⟨number, impossible⟩ := proper
      cases impossible
  | sendState other =>
      obtain rfl : other = ws := promises
      exact different (Coroutine.handler.inj proper.1).symm
  | broadcast =>
      obtain ⟨⟨number, impossible⟩, _⟩ := promises
      cases impossible
  | deliver =>
      obtain ⟨_, ⟨number, impossible⟩, _⟩ := promises
      cases impossible
  | _ => exact promises.elim

/-- What a handler drops when it leaves concerns its own socket only. -/
theorem Tells.drops
    {owner target : WebSocket} {rest todo : List Todo} {m : ConnectionManager}
    (tells : fact.Tells value s)
    (fits : s.Fits)
    (stands : s.phase? (.handler owner) =
      some (.sending target false rest next))
    (applied : s.manager.apply (.disconnect owner) = .ok (m, todo)) :
    fact.Tells value ({ s with manager := m }.enter (.handler owner)
      (.ready todo .finish)) := by
  intro ws present staying
  have branch := ConnectionManager.transition_of_apply applied
  have members := (ConnectionManager.mem_clients_iff branch).mp present
  have different : ws ≠ owner := by
    rintro rfl
    simp at members
  have before : ws ∈ s.manager.clients := by
    rcases members with ⟨before, _⟩ | ⟨_, _, impossible⟩
    · exact before
    · cases impossible
  have others : ∀ c, c ≠ .handler owner →
      ({ s with manager := m }.enter (.handler owner)
        (.ready todo .finish)).phase? c = s.phase? c :=
    fun c other => System.phase?_enter_of_ne other _
  refine (tells ws before ?_).of_same rfl fun c owes => ⟨c, owes.of_same ?_⟩
  · rintro ⟨phase, found, leaves⟩
    refine staying ⟨phase, (others _ ?_).trans found, leaves⟩
    rintro ⟨⟩
    exact different rfl
  · refine others c ?_
    rintro rfl
    exact not_owes_of_handler fits different owes

/-- A step of a handler that has nothing to send. -/
theorem Tells.handles
    (tells : fact.Tells (fact.current s.ableton.state) s)
    (fits : s.Fits)
    (taken : s.exec event = some after)
    (quiet : fact.Quiet s after)
    (handler : ∀ number, s.actor event ≠ some (.task number))
    (silent : ∀ c raised phase sending, event = .resume c raised →
      ¬phase.Unwinds raised → s.phase? c = some phase →
      s.manager.nextSend s.ableton.state phase.todo ≠ .ok (some sending)) :
    fact.KeepsTold after := by
  obtain ⟨middle, opened, moved⟩ := System.moves_of_exec fits taken
  have middleFits := fits.opening opened
  rw [KeepsTold, quiet.current]
  cases opened with
  | rests => exact tells.continues fits handler moved quiet.truthful
  | wakes resumed caught stands _ found =>
      exact absurd found (silent _ _ _ _ resumed caught stands)
  | drops _ stands applied =>
      exact (tells.drops fits stands applied).continues middleFits handler
        moved quiet.truthful

/-- A task that has nothing left to send ends. -/
theorem Tells.finishes
    (tells : fact.Tells value s)
    (fits : s.Fits)
    (stands : s.phase? c = some phase)
    (goesOn : phase.next? = some .finish)
    (found : s.manager.nextSend s.ableton.state phase.todo = .ok none) :
    fact.Tells value (s.enter c .done) := by
  have exhausted : System.Continuation (some c) s _ :=
    .exhausts rfl stands goesOn found
  have rested : System.Continuation (some c)
      (s.enter c (.ready [] .finish)) _ :=
    .rests rfl (s.phase?_enter_self c _) .done
  have quiet : ∀ {before after : System}, after.sent = before.sent →
      fact.Truthful value before after := fun sent =>
    ⟨[], by rw [sent, List.append_nil], by simp⟩
  have emptied : fact.Tells value (s.enter c (.ready [] .finish)) :=
    tells.continuation fits rfl exhausted (quiet rfl)
  rw [← System.enter_enter c (.ready [] .finish) .done]
  exact emptied.continuation (fits.continuation exhausted) rfl rested
    (quiet rfl)

/-- A coroutine that is resumed and sends. -/
theorem KeepsTold.wakes
    {raised : Bool}
    (kept : fact.KeepsTold s)
    (caught : ¬phase.Unwinds raised)
    (stands : s.phase? c = some phase)
    (goesOn : phase.next? = some next)
    (found : s.manager.nextSend s.ableton.state phase.todo =
      .ok (some sending))
    (current : ¬fact.Outdates s (.resume c raised)) :
    fact.KeepsTold (s.suspend c sending next) := by
  intro ws present staying
  have stays : ¬s.Leaving ws :=
    Topic.not_leaving_of_enter stands goesOn.symm.trans staying
  refine (kept ws present stays).suspend present stands found ?_
  rintro shown rfl shows
  by_contra stale
  obtain ⟨differs, rest⟩ := not_or.mp stale
  obtain ⟨own, others⟩ := not_or.mp rest
  refine current ⟨c, raised, phase, sending, shown, rfl, caught, stands,
    found, shows, present, stays, differs, ?_, ?_⟩
  · intro left member promises
    exact own ⟨left, member, promises⟩
  · intro other different owes
    exact others ⟨other, different, owes⟩

/-- A task that raises, and abandons nobody. -/
theorem keepsTold_fail
    {number : Nat} {raised : Bool} {key : KeyError}
    (stands : s.phase? (.task number) = some phase)
    (raises : s.manager.nextSend s.ableton.state phase.todo = .error key)
    (whole : ¬fact.Abandons s (.resume (.task number) raised)) :
    fact.KeepsTold (s.fail (.task number)) := by
  intro ws present staying
  have stays : ¬s.Leaving ws := by
    rintro ⟨stood, found, leaves⟩
    refine staying ⟨stood, (System.phase?_enter_of_ne ?_ _).trans found, leaves⟩
    exact Coroutine.noConfusion
  by_contra uninformed
  obtain ⟨untold, unowed⟩ := not_or.mp uninformed
  refine whole ⟨number, raised, phase, key, ws, rfl, stands, raises, present,
    stays, untold, ?_⟩
  intro other different owes
  exact unowed ⟨other, owes.of_same (System.phase?_enter_of_ne different _)⟩

/-- A coroutine goes on. -/
theorem KeepsTold.resume
    {raised : Bool}
    (kept : fact.KeepsTold s)
    (fits : s.Fits)
    (taken : s.exec (.resume c raised) = some after)
    (sound : ¬fact.Misleads s (.resume c raised)) :
    fact.KeepsTold after := by
  obtain ⟨current, whole⟩ := not_or.mp sound
  have resumed : s.Resumes c raised after := System.resumes_of_resume taken
  cases resumed with
  | @runs phase next stands goesOn caught =>
      cases found : s.manager.nextSend s.ableton.state phase.todo with
      | error key =>
          obtain ⟨number, rfl⟩ := fits.task_of_raises stands found
          have failed : s.run (.task number) phase.todo next =
              s.fail (.task number) := by
            simp only [System.run, found, System.unwind]
          rw [failed]
          exact keepsTold_fail stands found whole
      | ok sending? =>
          cases sending? with
          | some sending =>
              have sent : s.run c phase.todo next =
                  s.suspend c sending next := by
                simp only [System.run, found]
              rw [sent]
              exact kept.wakes caught stands goesOn found current
          | none =>
              have concluded : s.run c phase.todo next = s.conclude c next := by
                simp only [System.run, found]
              rw [concluded] at taken ⊢
              cases c with
              | task number =>
                  rcases (fits.phases _ _ stands).task number rfl with
                    rfl | finishes
                  · cases goesOn
                  · obtain rfl := Option.some.inj (goesOn.symm.trans finishes)
                    exact Tells.finishes kept fits stands goesOn found
              | handler ws =>
                  refine Tells.handles kept fits taken quiet_conclude ?_ ?_
                  · rintro number ⟨⟩
                  · rintro _ _ _ sending ⟨⟩ _ stood sends
                    obtain rfl := Option.some.inj (stands.symm.trans stood)
                    rw [found] at sends
                    cases sends
  | @unwinds ws rest next raises stands =>
      obtain ⟨rfl, owner, rfl⟩ := fits.handler_of_unguarded stands
      refine Tells.handles kept fits taken quiet_unwind ?_ ?_
      · rintro number ⟨⟩
      · rintro _ _ _ sending ⟨⟩ caught stood
        obtain rfl := Option.some.inj (stands.symm.trans stood)
        exact absurd ⟨raises, rfl⟩ caught

/-- A task performs an operation and runs on. -/
theorem KeepsTold.operate
    {number : Nat} {op : Op}
    (kept : fact.KeepsTold s)
    (fits : s.Fits)
    (performs : s.Performs (.task number) op .finish) :
    fact.KeepsTold (s.operate (.task number) op .finish) := by
  obtain ⟨m, todo, applied⟩ :=
    ConnectionManager.apply_isOk fits.roles (performs.enabled fits)
  have branch := ConnectionManager.transition_of_apply applied
  have operated := Tells.operates kept performs applied
  have operatedFits := fits.operates performs applied
  have quiet : fact.Quiet s (s.operate (.task number) op .finish) :=
    quiet_operate op
  rw [KeepsTold, quiet.current]
  simp only [System.operate, applied]
  have stands := ({ s with manager := m } : System).phase?_enter_self
    (.task number) (.ready todo .finish)
  unfold System.run
  split
  · rename_i key raises
    obtain ⟨entry, member, failed⟩ :=
      ConnectionManager.nextSend_eq_error raises
    obtain ⟨ws, _, rfl | rfl⟩ :=
      ConnectionManager.unguarded_of_firstSend_eq_error failed
    · obtain ⟨_, _, rfl⟩ := System.connect_of_sendState_mem branch member
      cases performs
    · exact (branch.safe _ member).elim
  · rename_i found
    have finished := operated.finishes operatedFits stands rfl found
    rwa [System.enter_enter] at finished
  · rename_i sending found
    have sent : System.Continuation (some (.task number)) _ _ :=
      .sends rfl stands (System.fresh_of_transition branch) found
    rw [System.suspend_enter] at sent
    have true : fact.Quiet { s with manager := m }
        (({ s with manager := m } : System).suspend (.task number) sending
          .finish) :=
      quiet_suspend (plain_of_transition branch) found
    exact operated.continuation operatedFits rfl sent true.truthful

/-- A timer goes off. -/
theorem KeepsTold.fire
    {timer : TaskId}
    (kept : fact.KeepsTold s)
    (fits : s.Fits)
    (taken : s.exec (.fire timer) = some after) :
    fact.KeepsTold after := by
  simp only [System.exec, System.fire] at taken
  split at taken
  · cases taken
  · rename_i sleeping waits
    split at taken
    · obtain rfl := Option.some.inj taken
      have numbered : ({ s with nextTask := s.nextTask + 1 } : System).Fits :=
        fits.congr rfl rfl (Nat.le_succ _)
      have stays : fact.KeepsTold { s with nextTask := s.nextTask + 1 } := kept
      exact stays.operate numbered
        (.fired fits.fresh (Nat.lt_succ_self _) (by simp [waits]))
    · cases taken

/-! ## Events of the bridge -/

/-- What the effects of the bridge leave alone. -/
structure Performed (s after : System) : Prop where
  fits : after.Fits
  manager : after.manager = s.manager
  ableton : after.ableton = s.ableton
  sent : after.sent = s.sent
  phase : ∀ c phase, s.phase? c = some phase → after.phase? c = some phase

theorem performed_perform
    (fits : s.Fits)
    (effect : Effect) :
    Performed s (s.perform none effect) := by
  have moved : System.Continues none s (s.perform none effect) :=
    System.perform_continues none effect
  have performs := fits.continues moved
  cases effect with
  | send command => exact ⟨performs, rfl, rfl, rfl, fun _ _ => id⟩
  | _ =>
      exact ⟨performs, rfl, rfl, rfl, fun _ _ => fits.phase?_createTask⟩

theorem performed_performAll
    (fits : s.Fits)
    (effects : List Effect) :
    Performed s (s.performAll none effects) := by
  induction effects generalizing s with
  | nil => exact ⟨fits, rfl, rfl, rfl, fun _ _ => id⟩
  | cons effect rest inductionHypothesis =>
      have first := performed_perform fits effect
      have later := inductionHypothesis first.fits
      exact ⟨later.fits, later.manager.trans first.manager,
        later.ableton.trans first.ableton, later.sent.trans first.sent,
        fun c phase stands => later.phase c phase (first.phase c phase stands)⟩

/-- An effect that creates a task leaves the task behind. -/
theorem exists_task_of_mem
    {effect : Effect} {effects : List Effect} {todo : List Todo}
    (fits : s.Fits)
    (member : effect ∈ effects)
    (creates : ∀ state : System, state.ableton = s.ableton →
      state.perform none effect = state.createTask todo) :
    ∃ number, (s.performAll none effects).phase? (.task number) =
      some (.ready todo .finish) := by
  induction effects generalizing s with
  | nil => cases member
  | cons head rest inductionHypothesis =>
      have first := performed_perform fits head
      rcases List.mem_cons.mp member with rfl | later
      · have performed := performed_performAll first.fits rest
        refine ⟨s.nextTask, performed.phase _ _ ?_⟩
        rw [creates s rfl]
        exact System.phase?_enter_self _ _
      · refine inductionHypothesis first.fits later fun state same => ?_
        exact creates state (same.trans first.ableton)

/-- A change of the fact is broadcast. -/
theorem KeepsTold.ableton
    (kept : fact.KeepsTold s)
    (fits : s.Fits)
    (reported : AbletonBridge.Event)
    (taken : s.exec (.ableton reported) = some after) :
    fact.KeepsTold after := by
  have performs : after =
      ({ s with ableton := (s.ableton.handle reported).1 } :
        System).performAll none (s.ableton.handle reported).2 :=
    (Option.some.inj taken).symm
  subst performs
  have handled : ({ s with ableton := (s.ableton.handle reported).1 } :
      System).Fits := fits.congr rfl rfl (Nat.le_refl _)
  have performed := performed_performAll handled (s.ableton.handle reported).2
  intro ws present staying
  rw [performed.manager] at present
  rw [performed.ableton]
  have owed : ∀ {effect entry}, effect ∈ (s.ableton.handle reported).2 →
      (∀ state : System,
        state.ableton = (s.ableton.handle reported).1 →
        state.perform none effect = state.createTask [entry]) →
      (∀ number, fact.Promises
        (fact.current (s.ableton.handle reported).1.state) (.task number) ws
        entry) →
      fact.Informed (fact.current (s.ableton.handle reported).1.state)
        (({ s with ableton := (s.ableton.handle reported).1 } :
          System).performAll none (s.ableton.handle reported).2) ws := by
    intro effect entry member creates promises
    obtain ⟨number, stands⟩ := exists_task_of_mem handled member creates
    exact Or.inr ⟨_, _, stands, entry, List.mem_singleton_self _,
      promises number⟩
  rcases fact.changes s.ableton reported with
    same | spawned | ⟨spawned, shows⟩
  · have stays : ¬s.Leaving ws := by
      rintro ⟨phase, found, leaves⟩
      exact staying ⟨phase, performed.phase _ _ found, leaves⟩
    have known := kept ws present stays
    rw [current, ← same] at known
    refine known.of_same performed.sent ?_
    rintro c ⟨phase, found, owes⟩
    exact ⟨c, phase, performed.phase _ _ found, owes⟩
  · exact owed spawned (fun _ _ => rfl) fun _ => trivial
  · have creates : ∀ state : System,
        state.ableton = (s.ableton.handle reported).1 →
        state.perform none .positionUpdate = state.createTask [.broadcast
          (.position (s.ableton.handle reported).1.state.positionSnapshot)] := by
      rintro state same
      rw [← same]
      rfl
    exact owed spawned creates fun number => ⟨⟨number, rfl⟩, shows⟩

/-- The step rule: a step keeps every device told unless it misleads one. -/
theorem KeepsTold.exec
    (kept : fact.KeepsTold s)
    (fits : s.Fits)
    (taken : s.exec event = some after)
    (sound : ¬fact.Misleads s event) :
    fact.KeepsTold after := by
  cases event with
  | resume c raised => exact kept.resume fits taken sound
  | fire timer => exact kept.fire fits taken
  | ableton reported => exact kept.ableton fits reported taken
  | accept | receive | hangUp | peerGone | wait =>
      have quiet : fact.Quiet s after := quiet_exec (by simp) (by simp) taken
      refine Tells.handles kept fits taken quiet ?_ (by simp)
      rintro number ⟨⟩

/-- Whom a step misleads is left behind. -/
theorem not_keepsTold_of_misleads
    (taken : s.exec event = some after)
    (misleads : fact.Misleads s event) :
    ¬fact.KeepsTold after := by
  rcases misleads with
    ⟨c, raised, phase, sending, shown, rfl, caught, stands, found, shows,
      present, staying, differs, silent, unowed⟩ |
    ⟨number, raised, phase, key, ws, rfl, stands, raises, present, staying,
      untold, unowed⟩
  · obtain ⟨next, goesOn, rfl⟩ :=
      System.resume_eq_suspend taken caught stands found
    have itself : (s.suspend c sending next).phase? c = some _ :=
      System.phase?_enter_self _ _
    have untouched : ∀ {other}, other ≠ c →
        (s.suspend c sending next).phase? other = s.phase? other :=
      fun different => System.phase?_enter_of_ne different _
    have stays : ¬(s.suspend c sending next).Leaving sending.frame.socket := by
      rintro ⟨stood, found', leaves⟩
      by_cases own : .handler sending.frame.socket = c
      · rw [own, itself] at found'
        obtain rfl := Option.some.inj found'
        exact staying ⟨phase, own ▸ stands, goesOn.trans leaves⟩
      · exact staying ⟨stood, (untouched own).symm.trans found', leaves⟩
    intro kept
    rcases kept sending.frame.socket present stays with
      told | ⟨other, stood, found', entry, member, promises⟩
    · rw [told_suspend, if_pos rfl, shows] at told
      exact differs (Option.some.inj told)
    · by_cases own : other = c
      · rw [own, itself] at found'
        obtain rfl := Option.some.inj found'
        exact silent entry member (own ▸ promises)
      · exact unowed other own
          ⟨stood, (untouched own).symm.trans found', entry, member, promises⟩
  · have failed : after = s.fail (.task number) := by
      have resumed : s.Resumes (.task number) raised after :=
        System.resumes_of_resume taken
      cases resumed with
      | runs stood =>
          obtain rfl := Option.some.inj (stood.symm.trans stands)
          simp only [System.run, raises, System.unwind]
      | unwinds => rfl
    subst failed
    have others : ∀ {other}, other ≠ .task number →
        (s.fail (.task number)).phase? other = s.phase? other :=
      fun different => System.phase?_enter_of_ne different _
    have stays : ¬(s.fail (.task number)).Leaving ws := by
      rintro ⟨stood, found, leaves⟩
      exact staying ⟨stood, (others Coroutine.noConfusion).symm.trans found,
        leaves⟩
    intro kept
    rcases kept ws present stays with
      told | ⟨other, stood, found, entry, member, promises⟩
    · exact untold told
    · by_cases own : other = .task number
      · have ended : (s.fail (.task number)).phase? (.task number) =
            some .done := System.phase?_enter_self _ _
        rw [own, ended] at found
        obtain rfl := Option.some.inj found
        cases member
      · exact unowed other own
          ⟨stood, (others own).symm.trans found, entry, member, promises⟩

/-! ## Runs -/

/-- In every run every device is always told what holds, or will be, exactly
if no step leaves a device behind. -/
theorem keepsTold_iff_not_misleads
    (run : Run System.exec {} steps finish) :
    (∀ step ∈ steps, fact.KeepsTold step.after) ↔
      ∀ step ∈ steps, ¬fact.Misleads step.before step.label := by
  constructor
  · intro kept step member misleads
    exact not_keepsTold_of_misleads (run.taken_of_mem member) misleads
      (kept step member)
  · refine run.conditionalInvariant_after fact.KeepsTold
      (fun current event => ¬fact.Misleads current event) ?_ ?_
    · intro ws present
      exact absurd present (Dict.not_mem_empty ws)
    · intro current event after reachable kept sound taken
      exact kept.exec (System.fits_of_reachable reachable) taken sound

theorem keepsTold_of_run
    (run : Run System.exec {} steps finish)
    (sound : ∀ step ∈ steps, ¬fact.Misleads step.before step.label) :
    fact.KeepsTold finish := by
  refine run.conditionalInvariant fact.KeepsTold
    (fun current event => ¬fact.Misleads current event) ?_ ?_ sound
  · intro ws present
    exact absurd present (Dict.not_mem_empty ws)
  · intro current event after reachable kept sound taken
    exact kept.exec (System.fits_of_reachable reachable) taken sound

/-- At rest nobody leaves and nobody owes, so every device was told. -/
theorem KeepsTold.told
    (kept : fact.KeepsTold s)
    (resting : s.AtRest)
    (present : ws ∈ s.manager.clients) :
    fact.told s ws = some (fact.current s.ableton.state) := by
  have staying : ¬s.Leaving ws := by
    rintro ⟨phase, stands, leaves⟩
    rcases resting.phase stands with rfl | rfl <;> cases leaves
  rcases kept ws present staying with
    told | ⟨c, phase, stands, entry, member, _⟩
  · exact told
  · rcases resting.phase stands with rfl | rfl <;> cases member

end Fact

/-! ## The songs and the transport -/

/-- The songs, with the number of cue points that they were parsed from. -/
structure SongList where
  songs : List Song
  cueCount : Nat
  cueWarning : Bool
  deriving DecidableEq

/-- How Ableton plays, and whether it can be reached. -/
structure Transport where
  isPlaying : Bool
  tempo : ℚ
  timeSignatureNumerator : Int
  abletonConnected : Bool
  deriving DecidableEq

namespace FullSnapshot

def songList (snapshot : FullSnapshot) : SongList where
  songs := snapshot.songs
  cueCount := snapshot.cueCount
  cueWarning := snapshot.cueWarning

def transport (snapshot : FullSnapshot) : Transport where
  isPlaying := snapshot.isPlaying
  tempo := snapshot.tempo
  timeSignatureNumerator := snapshot.timeSignatureNumerator
  abletonConnected := snapshot.abletonConnected

end FullSnapshot

def PositionSnapshot.transport (snapshot : PositionSnapshot) : Transport where
  isPlaying := snapshot.isPlaying
  tempo := snapshot.tempo
  timeSignatureNumerator := snapshot.timeSignatureNumerator
  abletonConnected := snapshot.abletonConnected

namespace AbletonBridge

variable {bridge : AbletonBridge}

/-- A result of the bridge in which every change is broadcast. -/
structure Announces (bridge : AbletonBridge)
    (result : AbletonBridge × List Effect) : Prop where
  songList : result.1.state.fullSnapshot.songList =
      bridge.state.fullSnapshot.songList ∨ .stateChange ∈ result.2
  transport : result.1.state.fullSnapshot.transport =
      bridge.state.fullSnapshot.transport ∨ .stateChange ∈ result.2 ∨
        .positionUpdate ∈ result.2

theorem announces_of_same
    {result : AbletonBridge × List Effect}
    (songList : result.1.state.fullSnapshot.songList =
      bridge.state.fullSnapshot.songList)
    (transport : result.1.state.fullSnapshot.transport =
      bridge.state.fullSnapshot.transport) :
    bridge.Announces result :=
  ⟨Or.inl songList, Or.inl transport⟩

theorem announces_handleBeat
    (bridge : AbletonBridge)
    (isBeatBoundary : Bool)
    (args : List OscArgument) :
    bridge.Announces (bridge.handleBeat isBeatBoundary args) := by
  have landed : ∀ state : AppState,
      (clearLandedJump state).fullSnapshot.songList =
          state.fullSnapshot.songList ∧
        (clearLandedJump state).fullSnapshot.transport =
          state.fullSnapshot.transport := by
    intro state
    unfold clearLandedJump
    split <;> exact ⟨rfl, rfl⟩
  unfold handleBeat
  split
  · exact announces_of_same rfl rfl
  · dsimp only
    split
    · exact announces_of_same rfl rfl
    · refine announces_of_same ((landed _).1.trans ?_) ((landed _).2.trans ?_)
      all_goals
        rw [fireRetarget_state]
        rfl

theorem announces_dispatch
    (bridge : AbletonBridge)
    (address : String)
    (args : List OscArgument) :
    bridge.Announces (bridge.dispatch address args) := by
  unfold dispatch
  split
  · simp only [handleCuePoints]
    split
    · exact announces_of_same rfl rfl
    · exact ⟨Or.inr List.mem_cons_self, Or.inl rfl⟩
  · exact announces_handleBeat bridge true args
  · exact announces_handleBeat bridge false args
  · simp only [handleTrackNames]
    split <;> exact announces_of_same rfl rfl
  · unfold handleCueClipNames
    split
    · exact announces_of_same rfl rfl
    · split
      · exact announces_of_same rfl rfl
      · split <;> exact announces_of_same rfl rfl
  · unfold handleTrackMute
    split
    · split <;> exact announces_of_same rfl rfl
    · exact announces_of_same rfl rfl
  · unfold handleTrackMeter
    split
    · split <;> exact announces_of_same rfl rfl
    · exact announces_of_same rfl rfl
  · unfold handleIsPlaying
    split
    · exact announces_of_same rfl rfl
    · exact ⟨Or.inl rfl, Or.inr (Or.inr List.mem_cons_self)⟩
  · unfold handleTempo
    split
    · exact announces_of_same rfl rfl
    · exact ⟨Or.inl rfl, Or.inr (Or.inr List.mem_cons_self)⟩
  · unfold handleSignatureNumerator
    split
    · exact announces_of_same rfl rfl
    · exact ⟨Or.inl rfl, Or.inr (Or.inr List.mem_cons_self)⟩
  · exact announces_of_same rfl rfl

/-- Every change of the songs or the transport is broadcast. -/
theorem announces_handle (bridge : AbletonBridge) (event : Event) :
    bridge.Announces (bridge.handle event) := by
  cases event with
  | datagram now address args =>
      have announces :=
        announces_dispatch { bridge with lastReceived := now } address args
      exact ⟨announces.songList, announces.transport⟩
  | cuesGenerated | guideAnalyzed | analysisApplied =>
      exact announces_of_same rfl rfl
  | watchdogTick now =>
      simp only [handle, watchdog]
      split
      · exact announces_of_same rfl rfl
      · exact ⟨Or.inl rfl, Or.inr (Or.inl List.mem_cons_self)⟩
  | meterTick =>
      simp only [handle, pollTrackMeters]
      split <;> exact announces_of_same rfl rfl

end AbletonBridge

/-- The songs are part of a full state only. -/
def songListFact : Fact SongList where
  ofState := FullSnapshot.songList
  ofPosition _ := none
  queued _ _ _ _ := rfl
  changes bridge event :=
    (bridge.announces_handle event).songList.imp_right Or.inl

/-- The transport is part of a full state and of a position. -/
def transportFact : Fact Transport where
  ofState := FullSnapshot.transport
  ofPosition snapshot := some snapshot.transport
  queued _ _ _ _ := rfl
  changes bridge event :=
    (bridge.announces_handle event).transport.imp_right
      (Or.imp_right fun told => ⟨told, rfl⟩)

namespace System

variable {s finish : System} {event : Event} {steps : List (Step System Event)}

theorem shown_songList_of_isShared
    {message : Message}
    (shared : message.IsShared) :
    songListFact.shown message = none := by
  cases message <;> first | rfl | exact shared.elim

/-- No text that is fixed in advance shows the songs. -/
theorem not_outdates_songList (fits : s.Fits) :
    ¬songListFact.Outdates s event := by
  rintro ⟨c, raised, phase, sending, shown, _, _, stands, found, shows, _, _,
    differs, _⟩
  obtain ⟨skipped, entry, later, first, todo, _, sends, rfl⟩ :=
    ConnectionManager.nextSend_eq_some found
  have own : entry ∈ phase.todo := by simp [todo]
  have proper := (fits.phases _ _ stands).proper entry own
  cases sends with
  | push built | sendState built | sendSnapshot built
  | broadcastFullState _ built =>
      exact differs (Option.some.inj
        (shows.symm.trans (Fact.shown_of_snapshotFor built)))
  | broadcast =>
      cases (shown_songList_of_isShared proper).symm.trans shows
  | deliver =>
      rcases proper with shared | ⟨devices, rfl⟩ | ⟨pending, rfl⟩
      · cases (shown_songList_of_isShared shared).symm.trans shows
      · cases shows
      · cases shows
  | _ => cases shows

/-- With the songs, a device can only be left behind by being abandoned. -/
theorem misleads_songList_iff
    (run : Run exec {} steps finish) :
    (∀ step ∈ steps, ¬songListFact.Misleads step.before step.label) ↔
      ∀ step ∈ steps, ¬songListFact.Abandons step.before step.label := by
  refine forall₂_congr fun step member => ?_
  obtain ⟨past, future, rfl⟩ := List.append_of_mem member
  have fits := fits_of_reachable run.split.1.reachable
  rw [Fact.Misleads, not_or]
  exact and_iff_right (not_outdates_songList fits)

/-- In every run every device is always told the songs, or will be, exactly if
no full-state broadcast abandons one; then at rest every device shows them. -/
theorem songList_told_iff_not_abandons
    (run : Run exec {} steps finish) :
    ((∀ step ∈ steps, songListFact.KeepsTold step.after) ↔
      ∀ step ∈ steps, ¬songListFact.Abandons step.before step.label) ∧
    ((∀ step ∈ steps, ¬songListFact.Abandons step.before step.label) →
      finish.AtRest → ∀ ws ∈ finish.manager.clients,
        songListFact.told finish ws =
          some finish.ableton.state.fullSnapshot.songList) := by
  have misleads := misleads_songList_iff run
  refine ⟨(Fact.keepsTold_iff_not_misleads run).trans misleads, ?_⟩
  intro sound resting ws present
  exact (Fact.keepsTold_of_run run (misleads.mpr sound)).told resting present

/-- Two tablets connect, and then Ableton replies with its cue points. -/
private def songsArrive : List Event :=
  [.accept ⟨0⟩ {} "stage"] ++ resumes (.handler ⟨0⟩) 2 ++
    [.accept ⟨1⟩ {} "keys"] ++ resumes (.handler ⟨1⟩) 3 ++ [songOfTwo] ++
    resumes (.task 0) 3

/-- What is resumed does not raise. -/
def raisesNothing (step : Step System Event) : Bool :=
  match step.label with
  | .resume c _ =>
      match step.before.phase? c with
      | none => true
      | some phase =>
          match step.before.manager.nextSend step.before.ableton.state
            phase.todo with
          | .error _ => false
          | .ok _ => true
  | _ => true

theorem not_abandons_of_raisesNothing
    {α : Type} {fact : Fact α} {step : Step System Event}
    (test : raisesNothing step = true) :
    ¬fact.Abandons step.before step.label := by
  rintro ⟨number, raised, phase, key, ws, resumed, stands, raises, _⟩
  simp only [raisesNothing, resumed, stands, raises] at test
  cases test

/-- Both tablets end up with the song. -/
theorem songList_told_iff_not_abandons_songsArrive :
    ∃ steps finish, Run exec {} steps finish ∧
      finish.ableton.state.songs.map Song.name = ["A"] ∧
      finish.manager.clients.keys = [⟨0⟩, ⟨1⟩] ∧
      ∀ ws ∈ finish.manager.clients, songListFact.told finish ws =
        some finish.ableton.state.fullSnapshot.songList := by
  have runs : (replay exec {} songsArrive).map (fun run =>
      decide (run.2.ableton.state.songs.map Song.name = ["A"] ∧
        run.2.manager.clients.keys = [⟨0⟩, ⟨1⟩] ∧ run.2.AtRest) &&
      run.1.all raisesNothing) = some true := by
    decide +kernel
  obtain ⟨⟨steps, finish⟩, replayed, facts⟩ := Option.map_eq_some_iff.mp runs
  rw [Bool.and_eq_true, decide_eq_true_eq, List.all_eq_true] at facts
  obtain ⟨⟨songs, clients, resting⟩, tested⟩ := facts
  have run := run_of_replay replayed
  refine ⟨steps, finish, run, songs, clients,
    (songList_told_iff_not_abandons run).2 ?_ resting⟩
  intro step member
  exact not_abandons_of_raisesNothing (tested step member)

/-- In every run every device is always told the transport, or will be, exactly
if no step hands one an older text or abandons one; then at rest every device
shows it. -/
theorem transport_told_iff_not_misleads
    (run : Run exec {} steps finish) :
    ((∀ step ∈ steps, transportFact.KeepsTold step.after) ↔
      ∀ step ∈ steps, ¬transportFact.Misleads step.before step.label) ∧
    ((∀ step ∈ steps, ¬transportFact.Misleads step.before step.label) →
      finish.AtRest → ∀ ws ∈ finish.manager.clients,
        transportFact.told finish ws =
          some finish.ableton.state.fullSnapshot.transport) := by
  refine ⟨Fact.keepsTold_iff_not_misleads run, ?_⟩
  intro sound resting ws present
  exact (Fact.keepsTold_of_run run sound).told resting present

/-- Ableton starts and stops while the first broadcast waits for one tablet:
the second broadcast overtakes it at the other. -/
private def stopOvertakes : List Event :=
  let plays (now : ℚ) (playing : Bool) : Event :=
    .ableton (.datagram now "/live/song/get/is_playing"
      [⟨toString playing, none, none, playing, false⟩])
  [.accept ⟨0⟩ {} "stage"] ++ resumes (.handler ⟨0⟩) 2 ++
    [.accept ⟨1⟩ {} "keys"] ++ resumes (.handler ⟨1⟩) 3 ++
    [plays 1 true] ++ resumes (.task 0) 1 ++ [plays 2 false] ++
    resumes (.task 1) 3 ++ resumes (.task 0) 2

/-- The other tablet goes on showing Ableton as playing. -/
theorem transport_told_iff_not_misleads_stopOvertakes :
    ∃ steps finish, Run exec {} steps finish ∧ finish.AtRest ∧
      ⟨1⟩ ∈ finish.manager.clients ∧
      (transportFact.told finish ⟨1⟩).map Transport.isPlaying = some true ∧
      finish.ableton.state.isPlaying = false ∧
      ∃ step ∈ steps, transportFact.Misleads step.before step.label := by
  have runs : (replay exec {} stopOvertakes).map (fun run =>
      decide (run.2.AtRest ∧ ⟨1⟩ ∈ run.2.manager.clients ∧
        (transportFact.told run.2 ⟨1⟩).map Transport.isPlaying = some true ∧
        run.2.ableton.state.isPlaying = false)) = some true := by
    decide +kernel
  obtain ⟨⟨steps, finish⟩, replayed, facts⟩ := Option.map_eq_some_iff.mp runs
  obtain ⟨resting, present, shown, stopped⟩ := of_decide_eq_true facts
  have run := run_of_replay replayed
  refine ⟨steps, finish, run, resting, present, shown, stopped, ?_⟩
  by_contra sound
  push Not at sound
  have told := (transport_told_iff_not_misleads run).2 sound resting _ present
  rw [told] at shown
  have playing : finish.ableton.state.isPlaying = true :=
    Option.some.inj shown
  rw [stopped] at playing
  cases playing

end System
end AbletonTracks
