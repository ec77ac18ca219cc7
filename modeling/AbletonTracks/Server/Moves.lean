import Mathlib.Logic.Relation
import AbletonTracks.Server.Sends

/-!
# Moves of the server

A step of the server is one opening, the part that depends on the event, and
then any number of continuations: operations of the manager, sends, and the
phases a coroutine passes through.

`Fits` is the invariant that every move keeps.  It connects the server to the
manager's own machine: the manager is in a state that its machine reaches, and
its clients are the sockets whose handlers are alive.
-/

namespace AbletonTracks

open Library

/-- The handler of a socket is alive until its `finally` has begun. -/
def Phase.Live : Phase → Prop
  | .ready _ next => next ≠ .finish
  | .sending _ _ _ next => next ≠ .finish
  | .receiving => True
  | .done => False

/-- What a send raises is not caught. -/
def Phase.Unwinds (raised : Bool) : Phase → Prop
  | .sending _ guarded _ _ => raised = true ∧ guarded = false
  | _ => False

/-- Operations that a device asks for. -/
def Op.AskedBy (asking : WebSocket) : Op → Prop
  | .setName ws _ | .requestControl ws _ | .cancelRequest ws | .respond ws _ _
  | .grant ws _ => ws = asking
  | _ => False

/-- Messages that callers of `broadcast` fix. -/
def Message.IsShared : Message → Prop
  | .position _ | .tracks _ | .meters _ | .jumpQueued _ _ _ => True
  | _ => False

/-- The entries of a full-state broadcast. -/
def Todo.IsFullState : Todo → Prop
  | .broadcastFullState | .sendSnapshot _ => True
  | _ => False

namespace System

variable {s after : System} {c : Coroutine} {event : Event}

@[simp] theorem phase?_enter_self (c : Coroutine) (phase : Phase) :
    (s.enter c phase).phase? c = some phase :=
  Dict.get?_insert_self _ _ _

theorem phase?_enter_of_ne
    {other : Coroutine}
    (different : other ≠ c)
    (phase : Phase) :
    (s.enter c phase).phase? other = s.phase? other :=
  Dict.get?_insert_of_ne _ different _

@[simp] theorem enter_enter (c : Coroutine) (first second : Phase) :
    (s.enter c first).enter c second = s.enter c second := by
  simp [enter]

@[simp] theorem enter_manager (c : Coroutine) (phase : Phase) :
    (s.enter c phase).manager = s.manager := rfl

@[simp] theorem enter_ableton (c : Coroutine) (phase : Phase) :
    (s.enter c phase).ableton = s.ableton := rfl

@[simp] theorem suspend_enter
    (c : Coroutine)
    (phase : Phase)
    (sending : Sending)
    (next : Next) :
    (s.enter c phase).suspend c sending next = s.suspend c sending next := by
  simp [suspend, enter]

@[simp] theorem fail_enter (c : Coroutine) (phase : Phase) :
    (s.enter c phase).fail c = s.fail c := by
  simp [fail, enter]

/-! ## Moves -/

/-- Who performs which operation, and what it does next. -/
inductive Performs (s : System) : Coroutine → Op → Next → Prop
  | accepted
      {ws : WebSocket} {params : QueryParams} {connectionId : String} :
      s.phase? (.handler ws) = none →
      Performs s (.handler ws) (.connect ws params connectionId) .receive
  | heard {ws : WebSocket} {op : Op} :
      s.phase? (.handler ws) = some .receiving →
      op.AskedBy ws →
      Performs s (.handler ws) op .receive
  | released {ws : WebSocket} :
      s.phase? (.handler ws) = some .receiving →
      s.manager.primary = some ws →
      Performs s (.handler ws) (.release ws) .leave
  | left {ws : WebSocket} {phase : Phase} :
      s.phase? (.handler ws) = some phase →
      phase.Live →
      phase.todo = [] →
      Performs s (.handler ws) (.disconnect ws) .finish
  | fired {number : Nat} {timer : TaskId} :
      s.phase? (.task number) = none →
      number < s.nextTask →
      s.manager.loop.timer? timer ≠ none →
      Performs s (.task number) (.fire timer) .finish

/-- How a handler starts a to-do list without an operation: it answers a
`refresh`, or broadcasts a jump. -/
inductive Begins (ws : WebSocket) : Todo → Next → Prop
  | refresh : Begins ws (.sendState ws) .receive
  | jump {message : Message} {jump : Jump} :
      message.IsShared →
      Begins ws (.broadcast message) (.land jump)

/-- How a coroutine's to-do list is followed: a handler waits for its next
message, or the coroutine ends. -/
inductive Rests : Coroutine → Next → Phase → Prop
  | receiving {ws : WebSocket} : Rests (.handler ws) .receive .receiving
  | landed {ws : WebSocket} {jump : Jump} :
      Rests (.handler ws) (.land jump) .receiving
  | done {c : Coroutine} : Rests c .finish .done

/-- A part of a step that does not depend on the event.  Only the actor's
phase changes. -/
inductive Continuation (actor : Option Coroutine) (s : System) :
    System → Prop
  /-- Only the bridge, the commands and the peers change. -/
  | drives {after : System} :
      after.manager = s.manager →
      after.coroutines = s.coroutines →
      s.nextTask ≤ after.nextTask →
      after.sent = s.sent →
      after.failed = s.failed →
      Continuation actor s after
  | waits {time : ℚ} :
      Continuation actor s { s with manager := { s.manager with
        loop := { s.manager.loop with time := time } } }
  | spawns {entry : Todo} :
      entry = .broadcastFullState ∨
        (∃ message : Message, message.IsShared ∧ entry = .broadcast message) →
      Continuation actor s (s.createTask [entry])
  | operates
      {c : Coroutine} {op : Op} {m : ConnectionManager} {todo : List Todo}
      {next : Next} :
      actor = some c →
      s.Performs c op next →
      s.manager.apply op = .ok (m, todo) →
      Continuation actor s
        ({ s with manager := m }.enter c (.ready todo next))
  | begins {ws : WebSocket} {entry : Todo} {next : Next} :
      actor = some (.handler ws) →
      s.phase? (.handler ws) = some .receiving →
      Begins ws entry next →
      Continuation actor s (s.enter (.handler ws) (.ready [entry] next))
  | sends
      {c : Coroutine} {todo : List Todo} {next : Next} {sending : Sending} :
      actor = some c →
      s.phase? c = some (.ready todo next) →
      (∀ ws message, .deliver ws message ∉ todo) →
      s.manager.nextSend s.ableton.state todo = .ok (some sending) →
      Continuation actor s (s.suspend c sending next)
  | exhausts {c : Coroutine} {phase : Phase} {next : Next} :
      actor = some c →
      s.phase? c = some phase →
      phase.next? = some next →
      s.manager.nextSend s.ableton.state phase.todo = .ok none →
      Continuation actor s (s.enter c (.ready [] next))
  | rests {c : Coroutine} {next : Next} {phase : Phase} :
      actor = some c →
      s.phase? c = some (.ready [] next) →
      Rests c next phase →
      Continuation actor s (s.enter c phase)
  | fails {number : Nat} {phase : Phase} {raised : KeyError} :
      actor = some (.task number) →
      s.phase? (.task number) = some phase →
      s.manager.nextSend s.ableton.state phase.todo = .error raised →
      Continuation actor s (s.fail (.task number))

/-- The part of a step that depends on the event. -/
inductive Opening (event : Event) (s : System) : System → Prop
  | rests : Opening event s s
  /-- A coroutine goes on to its next send. -/
  | wakes
      {c : Coroutine} {raised : Bool} {phase : Phase} {next : Next}
      {sending : Sending} :
      event = .resume c raised →
      ¬phase.Unwinds raised →
      s.phase? c = some phase →
      phase.next? = some next →
      s.manager.nextSend s.ableton.state phase.todo = .ok (some sending) →
      Opening event s (s.suspend c sending next)
  /-- A send without a guard raises: the rest of the to-do list is dropped. -/
  | drops
      {ws target : WebSocket} {rest : List Todo} {next : Next}
      {m : ConnectionManager} {todo : List Todo} :
      event = .resume (.handler ws) true →
      s.phase? (.handler ws) = some (.sending target false rest next) →
      s.manager.apply (.disconnect ws) = .ok (m, todo) →
      Opening event s
        ({ s with manager := m }.enter (.handler ws) (.ready todo .finish))

/-- The coroutine that an event runs. -/
def actor (s : System) : Event → Option Coroutine
  | .accept ws _ _ | .receive ws _ | .hangUp ws => some (.handler ws)
  | .resume c _ => some c
  | .fire _ => some (.task s.nextTask)
  | .peerGone _ | .wait _ | .ableton _ => none

/-- Any number of continuations. -/
def Continues (actor : Option Coroutine) : System → System → Prop :=
  Relation.ReflTransGen (Continuation actor)

/-! ## Phases that fit their coroutines -/

/-- Which entries a coroutine may have on its to-do list. -/
def Proper (c : Coroutine) (next? : Option Next) : Todo → Prop
  | .sendState ws => c = .handler ws ∧ next? = some .receive
  | .broadcastFullState | .sendSnapshot _ => ∃ number, c = .task number
  | .broadcast message => message.IsShared
  | .deliver _ message =>
      message.IsShared ∨ (∃ devices, message = .roster devices) ∨
        ∃ pending, message = .handoff pending
  | _ => True

/-- A phase that a coroutine can be in. -/
structure PhaseFits (c : Coroutine) (phase : Phase) : Prop where
  proper : ∀ entry ∈ phase.todo, Proper c phase.next? entry
  /-- A full-state broadcast is a task of its own. -/
  uniform : (∃ entry ∈ phase.todo, entry.IsFullState) →
    ∀ entry ∈ phase.todo, entry.IsFullState
  /-- A task receives nothing and has nothing to leave. -/
  task : ∀ number, c = .task number →
    phase = .done ∨ phase.next? = some .finish
  /-- Only a handler's own state is sent without a guard. -/
  unguarded : ∀ ws rest next, phase = .sending ws false rest next →
    next = .receive

/-- The manager is in a state of its own machine, its clients are the sockets
with a live handler, and every coroutine stands where it can. -/
structure Fits (s : System) : Prop where
  reachable : Reachable ConnectionManager.exec {} s.manager
  live : ∀ ws, ws ∈ s.manager.clients ↔
    ∃ phase, s.phase? (.handler ws) = some phase ∧ phase.Live
  numbered : ∀ number phase, s.phase? (.task number) = some phase →
    number < s.nextTask
  phases : ∀ c phase, s.phase? c = some phase → PhaseFits c phase

/-! ## Moves keep phases and clients in order -/

theorem fits_initial : ({} : System).Fits where
  reachable := .refl _ _
  live ws := by simp [phase?]
  numbered number phase found := by simp [phase?] at found
  phases c phase found := by simp [phase?] at found

namespace Fits

/-- The invariant looks at the manager, the coroutines and the task numbers
only. -/
theorem congr
    (fits : s.Fits)
    (manager : after.manager = s.manager)
    (coroutines : after.coroutines = s.coroutines)
    (numbers : s.nextTask ≤ after.nextTask) :
    after.Fits := by
  have samePhase : ∀ c, after.phase? c = s.phase? c := by
    intro c
    simp only [phase?, coroutines]
  constructor
  · rw [manager]
    exact fits.reachable
  · intro ws
    rw [manager, samePhase]
    exact fits.live ws
  · intro number phase found
    rw [samePhase] at found
    exact (fits.numbered number phase found).trans_le numbers
  · intro c phase found
    rw [samePhase] at found
    exact fits.phases c phase found

/-- A coroutine comes to stand somewhere else, perhaps with an operation that
connects or disconnects its socket. -/
theorem enter
    {m : ConnectionManager}
    {phase : Phase}
    (fits : s.Fits)
    (reachable : Reachable ConnectionManager.exec {} m)
    (phaseFits : PhaseFits c phase)
    (numbered : ∀ number, c = .task number → number < s.nextTask)
    (own : ∀ ws, c = .handler ws → (ws ∈ m.clients ↔ phase.Live))
    (others : ∀ ws, c ≠ .handler ws →
      (ws ∈ m.clients ↔ ws ∈ s.manager.clients)) :
    ({ s with manager := m }.enter c phase).Fits := by
  have samePhase : ∀ other, other ≠ c →
      ({ s with manager := m }.enter c phase).phase? other =
        s.phase? other :=
    fun other different => phase?_enter_of_ne different phase
  refine ⟨reachable, fun ws => ?_, fun number found stands => ?_,
    fun other found stands => ?_⟩
  · by_cases same : c = .handler ws
    · rw [← same, phase?_enter_self]
      simpa using own ws same
    · rw [samePhase _ (Ne.symm same)]
      exact (others ws same).trans (fits.live ws)
  · by_cases same : c = .task number
    · exact numbered number same
    · rw [samePhase _ (Ne.symm same)] at stands
      exact fits.numbered number found stands
  · by_cases same : other = c
    · subst same
      rw [phase?_enter_self] at stands
      exact Option.some.inj stands ▸ phaseFits
    · rw [samePhase _ same] at stands
      exact fits.phases other found stands

/-- A coroutine that is alive before and after changes its phase. -/
theorem enterAgain
    {old phase : Phase}
    (fits : s.Fits)
    (stands : s.phase? c = some old)
    (phaseFits : PhaseFits c phase)
    (live : phase.Live ↔ old.Live) :
    (s.enter c phase).Fits := by
  refine fits.enter fits.reachable phaseFits ?_ ?_ fun ws _ => Iff.rfl
  · rintro number rfl
    exact fits.numbered number old stands
  · rintro ws rfl
    rw [fits.live, live, stands]
    simp

theorem roles (fits : s.Fits) : s.manager.RolesFit :=
  (ConnectionManager.fits_of_reachable fits.reachable).1

/-- A handler that is not at its end has a connected socket. -/
theorem connected
    {ws : WebSocket}
    {phase : Phase}
    (fits : s.Fits)
    (stands : s.phase? (.handler ws) = some phase)
    (live : phase.Live) :
    ws ∈ s.manager.clients :=
  (fits.live ws).mpr ⟨phase, stands, live⟩

/-- The number of the next task is not taken. -/
theorem fresh (fits : s.Fits) : s.phase? (.task s.nextTask) = none := by
  cases stands : s.phase? (.task s.nextTask) with
  | none => rfl
  | some phase => exact absurd (fits.numbered _ _ stands) (Nat.lt_irrefl _)

/-- A new task leaves the other coroutines alone. -/
theorem phase?_createTask
    {todo : List Todo}
    {phase : Phase}
    (fits : s.Fits)
    (stands : s.phase? c = some phase) :
    (s.createTask todo).phase? c = some phase := by
  refine (phase?_enter_of_ne ?_ _).trans stands
  rintro rfl
  rw [fits.fresh] at stands
  cases stands

end Fits

/-- What a coroutine performs, the manager's machine can do. -/
theorem Performs.enabled
    {op : Op}
    {next : Next}
    (fits : s.Fits)
    (performs : s.Performs c op next) :
    s.manager.Enabled op := by
  cases performs with
  | @accepted ws params connectionId fresh =>
      intro present
      obtain ⟨phase, stands, _⟩ := (fits.live ws).mp present
      rw [fresh] at stands
      cases stands
  | @heard ws op stands asked =>
      have present := fits.connected stands trivial
      cases op with
      | setName | requestControl | cancelRequest | respond | grant =>
          obtain rfl := asked
          exact present
      | _ => exact asked.elim
  | released _ primary => exact primary
  | left stands live _ => exact fits.connected stands live
  | fired _ _ sleeping => exact sleeping

/-- Only a connect leaves its caller to send a state of its own. -/
theorem connect_of_sendState_mem
    {m after : ConnectionManager}
    {op : Op} {todo : List Todo} {ws : WebSocket}
    (branch : m.Transition op after todo)
    (owed : .sendState ws ∈ todo) :
    ∃ params connectionId, op = .connect ws params connectionId := by
  have announced : ∀ changes, .sendState ws ∉ announce changes := by
    intro changes member
    simp [announce] at member
  cases branch with
  | reclaims | supersedes | takesSlot | observes =>
      rcases List.mem_cons.mp owed with same | member
      · cases same
        exact ⟨_, _, rfl⟩
      · exact (announced _ member).elim
  | absent | leaves | handsBack | reserves | empties | requestTakesSlot
  | accepts | slotGranted => exact (announced _ owed).elim
  | grants =>
      rcases List.mem_append.mp owed with member | member
      · obtain ⟨_, _, impossible⟩ := List.mem_map.mp member
        cases impossible
      · exact (announced _ member).elim
  | releases | releasesTo =>
      rcases List.mem_append.mp owed with member | member
      · obtain ⟨_, _, impossible⟩ := List.mem_map.mp member
        cases impossible
      · exact (announced _ member).elim
  | _ => simp at owed

/-- The to-do list of an operation fits the coroutine that performs it. -/
theorem phaseFits_of_transition
    {m after : ConnectionManager} {op : Op} {todo : List Todo} {next : Next}
    (branch : m.Transition op after todo)
    (connects : ∀ ws params connectionId,
      op = .connect ws params connectionId →
      c = .handler ws ∧ next = .receive)
    (task : ∀ number, c = .task number → next = .finish) :
    PhaseFits c (.ready todo next) := by
  have proper : ∀ entry ∈ todo, Proper c (some next) entry ∧
      ¬entry.IsFullState := by
    intro entry member
    have safe := branch.safe entry member
    cases entry with
    | sendState ws =>
        obtain ⟨params, connectionId, connecting⟩ :=
          connect_of_sendState_mem branch member
        obtain ⟨own, receives⟩ := connects _ _ _ connecting
        exact ⟨⟨own, congrArg some receives⟩, id⟩
    | broadcast | deliver | broadcastFullState | sendSnapshot =>
        exact safe.elim
    | _ => exact ⟨trivial, id⟩
  refine ⟨fun entry member => (proper entry member).1, ?_, ?_, ?_⟩
  · rintro ⟨entry, member, full⟩
    exact ((proper entry member).2 full).elim
  · intro number same
    exact Or.inr (congrArg some (task number same))
  · intro ws rest next impossible
    cases impossible

/-- The phase of a coroutine that has just sent fits it too. -/
theorem PhaseFits.suspend
    {m : ConnectionManager} {app : AppState} {phase : Phase} {next : Next}
    {sending : Sending}
    (fits : PhaseFits c phase)
    (goesOn : phase.next? = some next)
    (found : m.nextSend app phase.todo = .ok (some sending)) :
    PhaseFits c (.sending sending.frame.socket sending.guarded sending.rest
      next) := by
  obtain ⟨skipped, entry, later, first, todo, _, sends, rfl⟩ :=
    ConnectionManager.nextSend_eq_some found
  have own : entry ∈ phase.todo := by simp [todo]
  have proper := fits.proper entry own
  rw [goesOn] at proper
  refine ⟨fun left member => ?_, ?_, ?_, ?_⟩
  · rcases List.mem_append.mp member with early | late
    · rcases sends.mem_rest early with
        ⟨ws, rfl, rfl⟩ | ⟨ws, rfl, rfl⟩ | ⟨ws, message, rfl, rfl⟩ |
          ⟨ws, rfl, rfl⟩
      · exact Or.inr (Or.inr ⟨_, rfl⟩)
      · exact Or.inr (Or.inl ⟨_, rfl⟩)
      · exact Or.inl proper
      · exact proper
    · have kept := fits.proper left (by simp [todo, late])
      rw [goesOn] at kept
      exact kept
  · rintro ⟨left, member, full⟩ other otherMember
    -- Either way the whole list before was one full-state broadcast.
    have whole : ∀ entry ∈ phase.todo, entry.IsFullState := by
      apply fits.uniform
      rcases List.mem_append.mp member with early | late
      · rcases sends.mem_rest early with
          ⟨ws, rfl, _⟩ | ⟨ws, rfl, _⟩ | ⟨ws, message, rfl, _⟩ | ⟨ws, _, rfl⟩
        · exact full.elim
        · exact full.elim
        · exact full.elim
        · exact ⟨_, own, trivial⟩
      · exact ⟨left, by simp [todo, late], full⟩
    rcases List.mem_append.mp otherMember with early | late
    · have entryFull := whole entry own
      rcases sends.mem_rest early with
        ⟨ws, rfl, rfl⟩ | ⟨ws, rfl, rfl⟩ | ⟨ws, message, rfl, rfl⟩ |
          ⟨ws, rfl, _⟩
      · exact entryFull.elim
      · exact entryFull.elim
      · exact entryFull.elim
      · trivial
    · exact whole other (by simp [todo, late])
  · intro number same
    rcases fits.task number same with rfl | finishing
    · cases goesOn
    · exact Or.inr (goesOn.symm.trans finishing)
  · intro ws rest last same
    injection same with _ raises _ lastSame
    rw [sends.eq_sendState raises] at proper
    rw [← lastSame]
    exact Option.some.inj proper.2

namespace Fits

/-- The socket of a live handler disconnects; whatever its handler still had
to do is dropped. -/
theorem disconnects
    {ws : WebSocket} {phase : Phase} {m : ConnectionManager}
    {todo : List Todo}
    (fits : s.Fits)
    (stands : s.phase? (.handler ws) = some phase)
    (live : phase.Live)
    (applied : s.manager.apply (.disconnect ws) = .ok (m, todo)) :
    ({ s with manager := m }.enter (.handler ws)
      (.ready todo .finish)).Fits := by
  have present := fits.connected stands live
  have branch := ConnectionManager.transition_of_apply applied
  have taken : s.manager.exec (.disconnect ws) = some m := by
    simp only [ConnectionManager.exec, ConnectionManager.Enabled,
      if_pos present, applied]
  have phaseFits : PhaseFits (.handler ws) (.ready todo .finish) :=
    phaseFits_of_transition branch (by simp) (by simp)
  refine fits.enter (fits.reachable.step taken) phaseFits ?_ ?_ ?_
  · intro number impossible
    cases impossible
  · rintro other ⟨⟩
    rw [ConnectionManager.mem_clients_iff branch]
    simp [Phase.Live]
  · intro other different
    rw [ConnectionManager.mem_clients_iff branch]
    have stays : Op.disconnect ws ≠ Op.disconnect other := by
      rintro ⟨⟩
      exact different rfl
    simp [stays]

/-- A coroutine performs an operation. -/
theorem operates
    {op : Op} {next : Next} {m : ConnectionManager} {todo : List Todo}
    (fits : s.Fits)
    (performs : s.Performs c op next)
    (applied : s.manager.apply op = .ok (m, todo)) :
    ({ s with manager := m }.enter c (.ready todo next)).Fits := by
  have branch := ConnectionManager.transition_of_apply applied
  have taken : s.manager.exec op = some m := by
    simp only [ConnectionManager.exec, if_pos (performs.enabled fits), applied]
  have reachable := fits.reachable.step taken
  have members : ∀ ws, ws ∈ m.clients ↔
      (ws ∈ s.manager.clients ∧ op ≠ .disconnect ws) ∨
        ∃ params connectionId, op = .connect ws params connectionId :=
    fun ws => ConnectionManager.mem_clients_iff branch
  cases performs with
  | @accepted ws params connectionId fresh =>
      refine fits.enter reachable
        (phaseFits_of_transition branch (by simp) (by simp)) (by simp) ?_ ?_
      · rintro other ⟨⟩
        simp [members, Phase.Live]
      · intro other different
        have notSame : ws ≠ other := fun same => different (same ▸ rfl)
        simp [members, notSame]
  | @heard ws op stands asked =>
      have kept : ∀ other, other ∈ m.clients ↔ other ∈ s.manager.clients := by
        intro other
        rw [members]
        cases op with
        | setName | requestControl | cancelRequest | respond | grant => simp
        | _ => exact asked.elim
      refine fits.enter reachable (phaseFits_of_transition branch ?_ (by simp))
        (by simp) ?_ fun other _ => kept other
      · rintro other params connectionId rfl
        exact asked.elim
      · rintro other ⟨⟩
        rw [kept]
        simpa [Phase.Live] using fits.connected stands trivial
  | @released ws stands primary =>
      refine fits.enter reachable
        (phaseFits_of_transition branch (by simp) (by simp)) (by simp) ?_ ?_
      · rintro other ⟨⟩
        simpa [members, Phase.Live] using fits.connected stands trivial
      · intro other _
        simp [members]
  | left stands live _ => exact fits.disconnects stands live applied
  | fired fresh number sleeping =>
      refine fits.enter reachable
        (phaseFits_of_transition branch (by simp) (by simp)) ?_ (by simp) ?_
      · rintro other ⟨⟩
        exact number
      · intro other _
        simp [members]

theorem continuation
    {actor : Option Coroutine}
    (fits : s.Fits)
    (moved : Continuation actor s after) :
    after.Fits := by
  cases moved with
  | drives manager coroutines numbers _ _ =>
      exact fits.congr manager coroutines numbers
  | @waits time =>
      have taken : s.manager.exec (.wait time) = some { s.manager with
          loop := { s.manager.loop with time := time } } := rfl
      exact ⟨fits.reachable.step taken, fits.live, fits.numbered, fits.phases⟩
  | @spawns entry broadcast =>
      have counted : ({ s with nextTask := s.nextTask + 1 } : System).Fits :=
        fits.congr rfl rfl (Nat.le_succ _)
      refine counted.enter counted.reachable ?_ ?_ (by simp) fun _ _ => Iff.rfl
      · refine ⟨?_, ?_, fun _ _ => Or.inr rfl, by simp⟩
        · intro other member
          obtain rfl := List.mem_singleton.mp member
          rcases broadcast with rfl | ⟨message, shared, rfl⟩
          · exact ⟨_, rfl⟩
          · exact shared
        · rintro ⟨other, member, full⟩ another anotherMember
          obtain rfl := List.mem_singleton.mp member
          obtain rfl := List.mem_singleton.mp anotherMember
          exact full
      · rintro number ⟨⟩
        exact Nat.lt_succ_self _
  | operates _ performs applied => exact fits.operates performs applied
  | begins _ stands begun =>
      refine fits.enterAgain stands ⟨?_, ?_, by simp, by simp⟩ ?_
      · intro other member
        obtain rfl := List.mem_singleton.mp member
        cases begun with
        | refresh => exact ⟨rfl, rfl⟩
        | jump shared => exact shared
      · rintro ⟨other, member, full⟩
        obtain rfl := List.mem_singleton.mp member
        cases begun <;> exact full.elim
      · cases begun <;> simp [Phase.Live]
  | sends _ stands _ found =>
      exact (fits.enterAgain stands
        ((fits.phases _ _ stands).suspend rfl found) Iff.rfl).congr rfl rfl
        (Nat.le_refl _)
  | @exhausts c phase next _ stands goesOn _ =>
      have old := fits.phases _ _ stands
      refine fits.enterAgain stands ⟨by simp [Phase.todo], ?_, ?_, by simp⟩ ?_
      · rintro ⟨entry, member, _⟩
        cases member
      · intro number same
        rcases old.task number same with rfl | finishing
        · cases goesOn
        · exact Or.inr (goesOn.symm.trans finishing)
      · cases phase with
        | ready | sending =>
            obtain rfl := Option.some.inj goesOn
            exact Iff.rfl
        | receiving | done => cases goesOn
  | rests _ stands resting =>
      cases resting with
      | receiving | landed =>
          refine fits.enterAgain stands
            ⟨by simp [Phase.todo], ?_, by simp, by simp⟩ (by simp [Phase.Live])
          rintro ⟨entry, member, _⟩
          cases member
      | done =>
          refine fits.enterAgain stands
            ⟨by simp [Phase.todo], ?_, fun _ _ => Or.inl rfl, by simp⟩
            (by simp [Phase.Live])
          rintro ⟨entry, member, _⟩
          cases member
  | fails _ stands _ =>
      have number := fits.numbered _ _ stands
      refine (fits.enter fits.reachable
        ⟨by simp [Phase.todo], ?_, fun _ _ => Or.inl rfl, by simp⟩ ?_
        (by simp) fun _ _ => Iff.rfl).congr rfl rfl (Nat.le_refl _)
      · rintro ⟨entry, member, _⟩
        cases member
      · rintro other ⟨⟩
        exact number

theorem opening
    (fits : s.Fits)
    (opened : Opening event s after) :
    after.Fits := by
  cases opened with
  | rests => exact fits
  | @wakes c raised phase next sending _ _ stands goesOn found =>
      refine (fits.enterAgain stands
        ((fits.phases _ _ stands).suspend goesOn found) ?_).congr rfl rfl
        (Nat.le_refl _)
      cases phase with
      | ready | sending =>
          obtain rfl := Option.some.inj goesOn
          exact Iff.rfl
      | receiving | done => cases goesOn
  | drops _ stands applied =>
      have receives := (fits.phases _ _ stands).unguarded _ _ _ rfl
      refine fits.disconnects stands ?_ applied
      simp [Phase.Live, receives]

theorem continues
    {actor : Option Coroutine}
    (fits : s.Fits)
    (moved : Continues actor s after) :
    after.Fits := by
  induction moved with
  | refl => exact fits
  | tail _ step inductionHypothesis =>
      exact inductionHypothesis.continuation step

end Fits

end System
end AbletonTracks
