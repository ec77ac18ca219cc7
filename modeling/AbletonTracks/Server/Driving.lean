import AbletonTracks.Bridge.Place
import AbletonTracks.Server.Steps

/-!
# What a step does to Ableton

Most steps leave the bridge and the jumps in progress alone.  The others are
the handlers' orders: a jump that is accepted, a jump that lands after its
broadcast, a stop, a mute, a start of playback; and Ableton's own messages.
`acts_of_exec` is the inversion rule that the results about jumps rest on.
-/

namespace AbletonTracks

open Library

/-- The jump that a phase still has to land. -/
def Phase.landing? : Phase → Option Jump
  | .ready _ (.land jump) | .sending _ _ _ (.land jump) => some jump
  | _ => none

/-- A phase with a jump to land comes to it after its to-do list. -/
theorem Phase.next?_of_landing?
    {phase : Phase} {jump : Jump}
    (pending : phase.landing? = some jump) :
    phase.next? = some (.land jump) := by
  unfold Phase.landing? at pending
  split at pending
  · obtain rfl := Option.some.inj pending
    rfl
  · obtain rfl := Option.some.inj pending
    rfl
  · cases pending

/-- The command that an effect sends. -/
def Effect.command? : Effect → Option Command
  | .send command => some command
  | _ => none

/-- The commands among effects, with the socket whose handler causes them. -/
def commandsOf (origin : Option WebSocket) (effects : List Effect) :
    List (Option WebSocket × Command) :=
  (effects.filterMap Effect.command?).map fun command => (origin, command)

theorem Effect.command?_eq_some
    {effect : Effect}
    {command : Command} :
    effect.command? = some command ↔ effect = .send command := by
  cases effect <;> simp [Effect.command?]

theorem mem_commandsOf
    {origin : Option WebSocket} {effects : List Effect}
    {entry : Option WebSocket × Command} :
    entry ∈ commandsOf origin effects ↔
      entry.1 = origin ∧ .send entry.2 ∈ effects := by
  obtain ⟨socket, command⟩ := entry
  simp only [commandsOf, List.mem_map, List.mem_filterMap,
    Effect.command?_eq_some, Prod.mk.injEq]
  constructor
  · rintro ⟨_, ⟨_, member, rfl⟩, rfl, rfl⟩
    exact ⟨rfl, member⟩
  · rintro ⟨rfl, member⟩
    exact ⟨command, ⟨_, member, rfl⟩, rfl, rfl⟩

theorem commandsOf_append
    (origin : Option WebSocket)
    (early late : List Effect) :
    commandsOf origin (early ++ late) =
      commandsOf origin early ++ commandsOf origin late := by
  simp [commandsOf]

namespace System

variable {s after : System} {c : Coroutine} {event : Event}

/-- The jump that the handler of a socket has accepted and not yet landed. -/
def landing? (s : System) (ws : WebSocket) : Option Jump :=
  (s.phase? (.handler ws)).bind Phase.landing?

/-- The jump that an event lands: the handler goes on, and has nothing left to
send of its broadcast. -/
def landsNow? (s : System) : Event → Option (WebSocket × Jump)
  | .resume (.handler ws) _ =>
      (s.phase? (.handler ws)).bind fun phase =>
        if s.manager.nextSend s.ableton.state phase.todo = .ok none then
          phase.landing?.map fun jump => (ws, jump)
        else none
  | _ => none

theorem landing?_of_landsNow?
    {ws : WebSocket} {jump : Jump}
    (lands : s.landsNow? event = some (ws, jump)) :
    s.landing? ws = some jump ∧
      ∃ raised, event = .resume (.handler ws) raised := by
  unfold landsNow? at lands
  split at lands
  · rename_i socket raised
    obtain ⟨phase, stands, lands⟩ := Option.bind_eq_some_iff.mp lands
    split at lands
    · obtain ⟨landed, pending, same⟩ := Option.map_eq_some_iff.mp lands
      obtain ⟨rfl, rfl⟩ := Prod.mk.inj same
      refine ⟨?_, raised, rfl⟩
      rw [landing?, stands, Option.bind_some, pending]
    · cases lands
  · cases lands

/-! ## Steps that leave the jumps alone -/

/-- A coroutine runs on without driving Ableton, and lands no jump later. -/
structure Calms (c : Coroutine) (s after : System) : Prop where
  ableton : after.ableton = s.ableton
  commands : after.commands = s.commands
  own : (after.phase? c).bind Phase.landing? = none
  others : ∀ other, other ≠ c → after.phase? other = s.phase? other

theorem calms_enter
    {phase : Phase}
    (lands : phase.landing? = none) :
    Calms c s (s.enter c phase) where
  ableton := rfl
  commands := rfl
  own := by rw [phase?_enter_self, Option.bind_some, lands]
  others _ different := phase?_enter_of_ne different phase

theorem calms_fail (s : System) (c : Coroutine) : Calms c s (s.fail c) := by
  have entered : Calms c s (s.enter c .done) := calms_enter rfl
  exact ⟨rfl, rfl, entered.own, entered.others⟩

theorem calms_suspend
    {sending : Sending} {next : Next}
    (lands : ∀ jump, next ≠ .land jump) :
    Calms c s (s.suspend c sending next) := by
  have entered : Calms c s (s.enter c (.sending sending.frame.socket
      sending.guarded sending.rest next)) := by
    refine calms_enter ?_
    cases next with
    | land jump => exact absurd rfl (lands jump)
    | _ => rfl
  exact ⟨rfl, rfl, entered.own, entered.others⟩

/-- The manager does not matter. -/
theorem Calms.manager
    {m : ConnectionManager}
    (calms : Calms c { s with manager := m } after) :
    Calms c s after where
  ableton := calms.ableton
  commands := calms.commands
  own := calms.own
  others := calms.others

theorem calms_runLast (s : System) (c : Coroutine) (todo : List Todo) :
    Calms c s (s.runLast c todo) := by
  unfold runLast
  split
  · exact calms_fail s c
  · exact calms_enter rfl
  · exact calms_suspend (by simp)

theorem calms_unwind (s : System) (c : Coroutine) :
    Calms c s (s.unwind c) := by
  unfold unwind
  split
  · exact calms_fail s _
  · split
    · exact calms_fail s _
    · exact (calms_runLast _ _ _).manager

theorem calms_conclude
    {next : Next}
    (lands : ∀ jump, next ≠ .land jump) :
    Calms c s (s.conclude c next) := by
  cases next with
  | receive | finish => exact calms_enter rfl
  | leave => exact calms_unwind s c
  | land jump => exact absurd rfl (lands jump)

theorem calms_run
    {todo : List Todo} {next : Next}
    (lands : ∀ jump, next ≠ .land jump) :
    Calms c s (s.run c todo next) := by
  unfold run
  split
  · exact calms_unwind s c
  · exact calms_conclude lands
  · exact calms_suspend lands

theorem calms_operate
    {op : Op} {next : Next}
    (lands : ∀ jump, next ≠ .land jump) :
    Calms c s (s.operate c op next) := by
  unfold operate
  split
  · exact calms_unwind s c
  · exact (calms_run lands).manager

theorem Calms.landing?
    (calms : Calms c s after)
    (idle : ∀ ws, c = .handler ws → s.landing? ws = none)
    (ws : WebSocket) :
    after.landing? ws = s.landing? ws := by
  by_cases own : c = .handler ws
  · rw [idle ws own, System.landing?, ← own, calms.own]
  · simp only [System.landing?, calms.others _ (Ne.symm own)]

/-! ## Commands -/

theorem perform_eq (s : System) (origin : Option WebSocket) (effect : Effect) :
    (s.perform origin effect).ableton = s.ableton ∧
      (s.perform origin effect).manager = s.manager ∧
      (s.perform origin effect).commands =
        s.commands ++ commandsOf origin [effect] ∧
      ∀ ws, (s.perform origin effect).phase? (.handler ws) =
        s.phase? (.handler ws) := by
  have tasks : ∀ (todo : List Todo) (ws : WebSocket),
      (s.createTask todo).phase? (.handler ws) = s.phase? (.handler ws) :=
    fun todo ws => phase?_enter_of_ne (by simp) _
  cases effect with
  | send command => exact ⟨rfl, rfl, rfl, fun _ => rfl⟩
  | positionUpdate | stateChange | tracksChange | meterUpdate =>
      refine ⟨rfl, rfl, ?_, tasks _⟩
      simp [perform, createTask, enter, commandsOf, Effect.command?]

/-- Effects are performed in order, and touch no handler. -/
theorem performAll_eq
    (s : System)
    (origin : Option WebSocket)
    (effects : List Effect) :
    (s.performAll origin effects).ableton = s.ableton ∧
      (s.performAll origin effects).manager = s.manager ∧
      (s.performAll origin effects).commands =
        s.commands ++ commandsOf origin effects ∧
      ∀ ws, (s.performAll origin effects).phase? (.handler ws) =
        s.phase? (.handler ws) := by
  induction effects generalizing s with
  | nil => exact ⟨rfl, rfl, (List.append_nil _).symm, fun _ => rfl⟩
  | cons effect rest inductionHypothesis =>
      obtain ⟨ableton, manager, commands, handlers⟩ :=
        s.perform_eq origin effect
      obtain ⟨restAbleton, restManager, restCommands, restHandlers⟩ :=
        inductionHypothesis (s.perform origin effect)
      refine ⟨restAbleton.trans ableton, restManager.trans manager, ?_,
        fun ws => (restHandlers ws).trans (handlers ws)⟩
      rw [← List.singleton_append, commandsOf_append, ← List.append_assoc,
        ← commands]
      exact restCommands

/-- A jump lands by its cue clip, or as a jump to its cue. -/
theorem land_cases (s : System) (ws : WebSocket) (jump : Jump) :
    (∃ track clip,
      s.ableton.cueClipForSection? jump.target.name = some (track, clip) ∧
      (s.land ws jump).commands =
        s.commands ++ [(some ws, .clipSlotFire track clip)] ∧
      (s.land ws jump).ableton = s.ableton.scheduleDownbeatRetarget
        jump.launchBeat (jump.target.position + jump.beatsPerBar)) ∨
    (s.ableton.cueClipForSection? jump.target.name = none ∧
      (s.land ws jump).commands =
        s.commands ++ [(some ws, .cuePointJump jump.target.cueIndex)] ∧
      (s.land ws jump).ableton = s.ableton.clearPendingRetarget) := by
  unfold land AbletonBridge.fireCueClipForSection
  cases clip? : s.ableton.cueClipForSection? jump.target.name with
  | none => exact Or.inr ⟨rfl, rfl, rfl⟩
  | some clip => exact Or.inl ⟨clip.1, clip.2, rfl, rfl, rfl⟩

/-- Of the bridge, a landing touches the pending retarget only. -/
theorem land_ableton (s : System) (ws : WebSocket) (jump : Jump) :
    ∃ retarget,
      (s.land ws jump).ableton =
        { s.ableton with pendingRetarget := retarget } := by
  rcases s.land_cases ws jump with ⟨_, _, _, _, schedules⟩ | ⟨_, _, clears⟩
  · exact ⟨_, schedules⟩
  · exact ⟨_, clears⟩

theorem land_phase? (s : System) (ws : WebSocket) (jump : Jump) :
    (s.land ws jump).phase? = s.phase? := by
  obtain ⟨ableton, commands, same⟩ := s.land_eq ws jump
  rw [same]
  rfl

/-! ## Every step -/

/-- What a step does to Ableton and to the jumps in progress. -/
inductive Acts (s : System) : Event → System → Prop
  /-- At most, Ableton is asked for something. -/
  | asks
      {event : Event} {after : System}
      {asked : List (Option WebSocket × Command)} :
      (∀ entry ∈ asked, ¬entry.2.Drives) →
      after.ableton = s.ableton →
      after.commands = s.commands ++ asked →
      (∀ ws, after.landing? ws = s.landing? ws) →
      Acts s event after
  /-- The primary mutes a track or starts playback. -/
  | orders
      {ws : WebSocket} {message : ClientMessage} {command : Command}
      {after : System} :
      s.manager.primary = some ws →
      (command = .startPlaying ∨
        ∃ track muted, command = .setMute track muted) →
      after.ableton = s.ableton →
      after.commands = s.commands ++ [(some ws, command)] →
      (∀ other, after.landing? other = s.landing? other) →
      Acts s (.receive ws message) after
  /-- The primary stops playback. -/
  | stops {ws : WebSocket} {after : System} :
      s.manager.primary = some ws →
      after.ableton = (s.stop ws).ableton →
      after.commands = s.commands ++ [(some ws, .stopPlaying)] →
      (∀ other, after.landing? other = s.landing? other) →
      Acts s (.receive ws .stop) after
  /-- A jump of the primary is accepted; its broadcast begins. -/
  | accepts
      {ws : WebSocket} {songIndex sectionIndex : Int} {target : Section}
      {after : System} :
      s.manager.primary = some ws →
      s.landing? ws = none →
      sectionAt? s.ableton.state songIndex sectionIndex = some target →
      after.ableton = (s.queue songIndex sectionIndex
        (jumpTo s.ableton.state target)).ableton →
      after.commands = s.commands ++ commandsOf (some ws) (loopFor target) →
      after.landing? ws = some (jumpTo s.ableton.state target) →
      (∀ other, other ≠ ws → after.landing? other = s.landing? other) →
      Acts s
        (.receive ws (.jump (some songIndex) (some sectionIndex))) after
  /-- A jump lands after its broadcast. -/
  | lands
      {event : Event} {ws : WebSocket} {jump : Jump} {after : System} :
      s.landsNow? event = some (ws, jump) →
      after.ableton = (s.land ws jump).ableton →
      after.commands = (s.land ws jump).commands →
      after.landing? ws = none →
      (∀ other, other ≠ ws → after.landing? other = s.landing? other) →
      Acts s event after
  /-- The bridge handles something. -/
  | handles {event : AbletonBridge.Event} {after : System} :
      after.ableton = (s.ableton.handle event).1 →
      after.commands =
        s.commands ++ commandsOf none (s.ableton.handle event).2 →
      (∀ ws, after.landing? ws = s.landing? ws) →
      Acts s (.ableton event) after

/-- A step that changes nothing of this drives nothing. -/
theorem acts_quiet
    (ableton : after.ableton = s.ableton)
    (commands : after.commands = s.commands)
    (landing : ∀ ws, after.landing? ws = s.landing? ws) :
    s.Acts event after := by
  have nothing : ∀ entry ∈ ([] : List (Option WebSocket × Command)),
      ¬entry.2.Drives := by simp
  exact .asks nothing ableton (commands.trans (List.append_nil _).symm) landing

/-- A step that runs a coroutine without a jump drives nothing. -/
theorem Calms.acts
    (calms : Calms c s after)
    (idle : ∀ ws, c = .handler ws → s.landing? ws = none) :
    s.Acts event after :=
  acts_quiet calms.ableton calms.commands (calms.landing? idle)

/-- Performing effects leaves every jump in progress. -/
theorem landing?_performAll
    (origin : Option WebSocket)
    (effects : List Effect)
    (ws : WebSocket) :
    (s.performAll origin effects).landing? ws = s.landing? ws := by
  obtain ⟨_, _, _, handlers⟩ := s.performAll_eq origin effects
  simp only [landing?, handlers]

theorem landing?_of_receiving
    {ws : WebSocket}
    (stands : s.phase? (.handler ws) = some .receiving) :
    s.landing? ws = none := by
  rw [landing?, stands]
  rfl

/-- A connected socket hears every broadcast, so a broadcast sends. -/
theorem nextSend_broadcast
    {m : ConnectionManager}
    {ws : WebSocket}
    (app : AppState)
    (message : Message)
    (connected : ws ∈ m.clients) :
    ∃ sending, m.nextSend app [.broadcast message] = .ok (some sending) := by
  cases recipients : m.targets with
  | nil =>
      have member := ConnectionManager.mem_targets.mpr connected
      rw [recipients] at member
      cases member
  | cons first others =>
      simp [ConnectionManager.nextSend, ConnectionManager.firstSend,
        recipients, ConnectionManager.deliverAll]

/-- A handler that starts to broadcast its jump has it in progress. -/
theorem landing?_suspend
    (s : System)
    (ws : WebSocket)
    (sending : Sending)
    (jump : Jump) :
    (s.suspend (.handler ws) sending (.land jump)).landing? ws = some jump ∧
      ∀ other, other ≠ ws →
        (s.suspend (.handler ws) sending (.land jump)).landing? other =
          s.landing? other := by
  have own : (s.suspend (.handler ws) sending (.land jump)).phase?
      (.handler ws) = some (.sending sending.frame.socket sending.guarded
        sending.rest (.land jump)) := s.phase?_enter_self _ _
  refine ⟨by rw [landing?, own]; rfl, fun other different => ?_⟩
  have kept : (s.suspend (.handler ws) sending (.land jump)).phase?
      (.handler other) = s.phase? (.handler other) :=
    phase?_enter_of_ne (by simpa using different) _
  simp only [landing?, kept]

theorem run_eq_suspend
    {todo : List Todo} {next : Next} {sending : Sending}
    (found : s.manager.nextSend s.ableton.state todo = .ok (some sending)) :
    s.run c todo next = s.suspend c sending next := by
  simp only [run, found]

/-- An accepted jump is queued, its loop is set, and its broadcast begins. -/
theorem handleJump_begins
    {ws : WebSocket}
    {songIndex sectionIndex : Int}
    {target : Section}
    (fits : s.Fits)
    (stands : s.phase? (.handler ws) = some .receiving)
    (found : sectionAt? s.ableton.state songIndex sectionIndex =
      some target)
    (accepted : s.handleJump ws (some songIndex) (some sectionIndex) =
      after) :
    after.ableton = (s.queue songIndex sectionIndex
        (jumpTo s.ableton.state target)).ableton ∧
      after.commands = s.commands ++ commandsOf (some ws) (loopFor target) ∧
      after.landing? ws = some (jumpTo s.ableton.state target) ∧
      ∀ other, other ≠ ws → after.landing? other = s.landing? other := by
  simp only [handleJump, found] at accepted
  obtain ⟨ableton, manager, commands, handlers⟩ := (s.queue songIndex
    sectionIndex (jumpTo s.ableton.state target)).performAll_eq (some ws)
    (loopFor target)
  generalize (s.queue songIndex sectionIndex
    (jumpTo s.ableton.state target)).performAll (some ws)
    (loopFor target) = ready at ableton manager commands handlers accepted
  have connected : ws ∈ ready.manager.clients := by
    rw [manager]
    exact fits.connected stands trivial
  obtain ⟨sending, sends⟩ := nextSend_broadcast ready.ableton.state
    (.jumpQueued songIndex sectionIndex
      (jumpTo s.ableton.state target).launchBeat) connected
  obtain ⟨own, others⟩ := ready.landing?_suspend ws sending
    (jumpTo s.ableton.state target)
  rw [run_eq_suspend sends] at accepted
  subst accepted
  refine ⟨ableton, commands, own, fun other different => ?_⟩
  rw [others other different, landing?, handlers]
  rfl

/-- A jump that the primary taps is accepted when it leads to a section. -/
theorem begins_of_receive
    {ws : WebSocket}
    {songIndex sectionIndex : Int}
    {target : Section}
    (fits : s.Fits)
    (taken : s.exec (.receive ws (.jump (some songIndex)
      (some sectionIndex))) = some after)
    (primary : s.manager.primary = some ws)
    (found : sectionAt? s.ableton.state songIndex sectionIndex =
      some target) :
    after.ableton = (s.queue songIndex sectionIndex
        (jumpTo s.ableton.state target)).ableton ∧
      after.commands = s.commands ++ commandsOf (some ws) (loopFor target) ∧
      after.landing? ws = some (jumpTo s.ableton.state target) := by
  obtain ⟨stands, heard⟩ := handleJump_of_receive taken primary
  obtain ⟨ableton, commands, begun, _⟩ :=
    handleJump_begins fits stands found heard
  exact ⟨ableton, commands, begun⟩

theorem queued_of_receive
    {ws : WebSocket}
    {songIndex sectionIndex : Int}
    {target : Section}
    (fits : s.Fits)
    (taken : s.exec (.receive ws (.jump (some songIndex)
      (some sectionIndex))) = some after)
    (primary : s.manager.primary = some ws)
    (found : sectionAt? s.ableton.state songIndex sectionIndex =
      some target) :
    after.ableton.state.queued =
      (songIndex, sectionIndex,
        some ((jumpTo s.ableton.state target).launchBeat : ℚ)) := by
  obtain ⟨accepted, _⟩ := begins_of_receive fits taken primary found
  rw [accepted]
  rfl

theorem acts_handleJump
    {ws : WebSocket}
    (fits : s.Fits)
    (stands : s.phase? (.handler ws) = some .receiving)
    (primary : s.manager.primary = some ws)
    (songIndex sectionIndex : Option Int) :
    s.Acts (.receive ws (.jump songIndex sectionIndex))
      (s.handleJump ws songIndex sectionIndex) := by
  cases songIndex with
  | none => exact acts_quiet rfl rfl fun _ => rfl
  | some songIndex =>
  cases sectionIndex with
  | none => exact acts_quiet rfl rfl fun _ => rfl
  | some sectionIndex =>
  cases found : sectionAt? s.ableton.state songIndex sectionIndex with
  | none =>
      simp only [handleJump, found]
      exact acts_quiet rfl rfl fun _ => rfl
  | some target =>
      obtain ⟨ableton, commands, own, others⟩ :=
        handleJump_begins fits stands found rfl
      exact .accepts primary (landing?_of_receiving stands) found ableton
        commands own others

theorem acts_obey
    {ws : WebSocket}
    (fits : s.Fits)
    (stands : s.phase? (.handler ws) = some .receiving)
    (primary : s.manager.primary = some ws)
    (message : ClientMessage) :
    s.Acts (.receive ws message) (s.obey ws message) := by
  have idle : ∀ other, Coroutine.handler ws = .handler other →
      s.landing? other = none := by
    rintro other ⟨⟩
    exact landing?_of_receiving stands
  have landing : ∀ effects other,
      (s.performAll (some ws) effects).landing? other = s.landing? other :=
    landing?_performAll (some ws)
  cases message with
  | jump songIndex sectionIndex =>
      exact acts_handleJump fits stands primary songIndex sectionIndex
  | muteTrack trackIndex muted =>
      cases trackIndex with
      | none => exact (calms_unwind s _).acts idle
      | some index =>
          simp only [obey]
          split
          · exact acts_quiet rfl rfl fun _ => rfl
          · split
            · obtain ⟨ableton, _, commands, _⟩ := s.performAll_eq (some ws)
                (AbletonBridge.setTrackMute index muted)
              exact .orders primary (Or.inr ⟨index, muted, rfl⟩) ableton
                commands (landing _)
            · exact (calms_unwind s _).acts idle
  | play =>
      obtain ⟨ableton, _, commands, _⟩ :=
        s.performAll_eq (some ws) AbletonBridge.play
      exact .orders primary (Or.inl rfl) ableton commands (landing _)
  | stop =>
      obtain ⟨_, _, commands, _⟩ :=
        s.performAll_eq (some ws) AbletonBridge.stopPlayback
      exact .stops primary rfl commands (landing _)
  | releaseControl =>
      change s.Acts _ (s.operate (.handler ws) (.release ws) .leave)
      exact (calms_operate (by simp)).acts idle
  | respondControl | grantControl =>
      refine (calms_operate ?_).acts idle
      simp
  | generateCues trackName =>
      obtain ⟨ableton, _, commands, _⟩ := s.performAll_eq (some ws)
        (AbletonBridge.generateCuesFromTrack trackName)
      refine .asks ?_ ableton commands (landing _)
      intro entry member drives
      obtain ⟨_, sends⟩ := mem_commandsOf.mp member
      simp only [AbletonBridge.generateCuesFromTrack, List.mem_singleton,
        Effect.send.injEq] at sends
      rw [sends] at drives
      exact drives
  | _ => exact acts_quiet rfl rfl fun _ => rfl

/-- Asking for everything drives nothing. -/
theorem not_drives_refresh
    {origin : Option WebSocket} {entry : Option WebSocket × Command}
    (member : entry ∈ commandsOf origin AbletonBridge.refresh) :
    ¬entry.2.Drives := by
  obtain ⟨_, sends⟩ := mem_commandsOf.mp member
  exact (AbletonBridge.forceRefresh_samePlace {}).2 _ sends

/-- A handler that asks for everything and then runs on only asks. -/
theorem Calms.acts_refresh
    {ws : WebSocket}
    (calms : Calms (.handler ws)
      (s.performAll (some ws) AbletonBridge.refresh) after)
    (idle : s.landing? ws = none) :
    s.Acts event after := by
  obtain ⟨ableton, _, commands, _⟩ :=
    s.performAll_eq (some ws) AbletonBridge.refresh
  refine .asks (fun entry => not_drives_refresh)
    (calms.ableton.trans ableton) (calms.commands.trans commands) ?_
  intro other
  rw [calms.landing? ?_, landing?_performAll]
  rintro same ⟨⟩
  rw [landing?_performAll, idle]

theorem acts_hear
    {ws : WebSocket}
    (fits : s.Fits)
    (stands : s.phase? (.handler ws) = some .receiving)
    (message : ClientMessage) :
    s.Acts (.receive ws message) (s.hear ws message) := by
  have idle : ∀ other, Coroutine.handler ws = .handler other →
      s.landing? other = none := by
    rintro other ⟨⟩
    exact landing?_of_receiving stands
  have obeyed : s.Acts (.receive ws message)
      (if s.manager.isPrimary ws then s.obey ws message else s) := by
    split
    · rename_i primary
      exact acts_obey fits stands
        (by simpa [ConnectionManager.isPrimary] using primary) message
    · exact acts_quiet rfl rfl fun _ => rfl
  cases message with
  | badJson => exact acts_quiet rfl rfl fun _ => rfl
  | notAnObject => exact (calms_unwind s _).acts idle
  | refresh =>
      exact (calms_run (by simp)).acts_refresh (landing?_of_receiving stands)
  | cancelControlRequest =>
      change s.Acts _ (s.operate (.handler ws) (.cancelRequest ws) .receive)
      exact (calms_operate (by simp)).acts idle
  | register | requestControl =>
      refine (calms_operate ?_).acts idle
      simp
  | _ => exact obeyed

/-- A coroutine that runs on lands its jump, has it still in progress, or has
none. -/
theorem acts_run
    {phase : Phase} {next : Next} {raised : Bool}
    (fits : s.Fits)
    (stands : s.phase? c = some phase)
    (goesOn : phase.next? = some next) :
    s.Acts (.resume c raised) (s.run c phase.todo next) := by
  by_cases lands : ∃ jump, next = .land jump
  · obtain ⟨jump, rfl⟩ := lands
    obtain ⟨ws, rfl⟩ := fits.handler_of_next? stands goesOn (by simp)
    have before : s.landing? ws = some jump := by
      rw [landing?, stands]
      cases phase with
      | ready | sending =>
          obtain rfl := Option.some.inj goesOn
          rfl
      | receiving | done => cases goesOn
    cases found : s.manager.nextSend s.ableton.state phase.todo with
    | error raised => exact absurd found (fits.nextSend_ne_error stands raised)
    | ok sending? =>
        cases sending? with
        | none =>
            simp only [run, found, conclude]
            have pending : phase.landing? = some jump := by
              rw [landing?, stands] at before
              exact before
            have now : s.landsNow? (.resume (.handler ws) raised) =
                some (ws, jump) := by
              simp [landsNow?, stands, found, pending]
            refine .lands now rfl rfl ?_ ?_
            · rw [landing?, phase?_enter_self]
              rfl
            · intro other different
              rw [landing?, phase?_enter_of_ne (by simpa using different),
                land_phase?]
              rfl
        | some sending =>
            rw [run_eq_suspend found]
            obtain ⟨own, others⟩ := s.landing?_suspend ws sending jump
            refine acts_quiet rfl rfl fun other => ?_
            by_cases same : other = ws
            · rw [same, own, before]
            · exact others other same
  · rw [not_exists] at lands
    refine (calms_run lands).acts ?_
    rintro ws rfl
    rw [landing?, stands]
    cases phase with
    | ready _ following | sending _ _ _ following =>
        obtain rfl := Option.some.inj goesOn
        cases following with
        | land jump => exact absurd rfl (lands jump)
        | _ => rfl
    | receiving | done => rfl

theorem acts_resume
    {raised : Bool}
    (fits : s.Fits)
    (taken : s.resume c raised = some after) :
    s.Acts (.resume c raised) after := by
  cases resumes_of_resume taken with
  | runs stands goesOn _ => exact acts_run fits stands goesOn
  | unwinds raises stands =>
      -- Only a handler's own state is sent without a guard.
      obtain ⟨rfl, _⟩ := fits.handler_of_unguarded stands
      refine (calms_unwind s c).acts ?_
      rintro socket rfl
      rw [landing?, stands]
      rfl

/-- What the bridge hears it handles, and the server performs the effects. -/
theorem handles_of_ableton
    {event : AbletonBridge.Event}
    (taken : s.exec (.ableton event) = some after) :
    after.ableton = (s.ableton.handle event).1 ∧
      after.commands =
        s.commands ++ commandsOf none (s.ableton.handle event).2 := by
  obtain rfl := Option.some.inj taken
  obtain ⟨ableton, _, commands, _⟩ := performAll_eq
    { s with ableton := (s.ableton.handle event).1 } none
    (s.ableton.handle event).2
  exact ⟨ableton, commands⟩

/-- Every step acts in one of these ways. -/
theorem acts_of_exec
    (fits : s.Fits)
    (taken : s.exec event = some after) :
    s.Acts event after := by
  cases event with
  | accept ws params connectionId =>
      simp only [exec] at taken
      split at taken
      · rename_i fresh
        obtain rfl := Option.some.inj taken
        refine (calms_operate ?_).acts_refresh ?_
        · simp
        · rw [landing?, fresh]
          rfl
      · cases taken
  | receive ws message =>
      obtain ⟨stands, rfl⟩ := hear_of_receive taken
      exact acts_hear fits stands message
  | hangUp ws =>
      simp only [exec] at taken
      split at taken
      · rename_i both
        obtain rfl := Option.some.inj taken
        refine (calms_unwind s _).acts ?_
        rintro other ⟨⟩
        exact landing?_of_receiving both.1
      · cases taken
  | resume c raised => exact acts_resume fits taken
  | fire timer =>
      simp only [exec, fire] at taken
      split at taken
      · cases taken
      · split at taken
        · obtain rfl := Option.some.inj taken
          have calms : Calms (.task s.nextTask)
              { s with nextTask := s.nextTask + 1 }
              (operate { s with nextTask := s.nextTask + 1 }
                (.task s.nextTask) (.fire timer) .finish) :=
            calms_operate (by simp)
          exact acts_quiet calms.ableton calms.commands
            (calms.landing? (by simp))
        · cases taken
  | peerGone ws =>
      obtain rfl := Option.some.inj taken
      exact acts_quiet rfl rfl fun _ => rfl
  | wait time =>
      simp only [exec] at taken
      split at taken
      · obtain rfl := Option.some.inj taken
        exact acts_quiet rfl rfl fun _ => rfl
      · cases taken
  | ableton event =>
      obtain ⟨ableton, commands⟩ := handles_of_ableton taken
      obtain rfl := Option.some.inj taken
      exact .handles ableton commands (landing?_performAll _ _)

/-- A jump that lands is in progress no more. -/
theorem landing?_of_lands
    {ws : WebSocket} {jump : Jump}
    (fits : s.Fits)
    (taken : s.exec event = some after)
    (lands : s.landsNow? event = some (ws, jump)) :
    after.landing? ws = none := by
  obtain ⟨pending, raised, rfl⟩ := landing?_of_landsNow? lands
  obtain ⟨phase, stands, lands⟩ := Option.bind_eq_some_iff.mp lands
  rw [landing?, stands, Option.bind_some] at pending
  have goesOn := Phase.next?_of_landing? pending
  split at lands
  · rename_i found
    have caught : ¬phase.Unwinds raised := by
      cases phase with
      | sending target guarded rest next =>
          rintro ⟨_, rfl⟩
          obtain rfl := Option.some.inj goesOn
          cases (fits.phases _ _ stands).unguarded _ _ _ rfl
      | _ => exact id
    obtain ⟨next, follows, rfl⟩ := eq_run_of_resume taken stands caught
    obtain rfl := Option.some.inj (follows.symm.trans goesOn)
    simp only [run, found, conclude]
    rw [landing?, phase?_enter_self]
    rfl
  · cases lands

/-! ## The jump in progress -/

/-- A jump stays in progress until it lands. -/
theorem landing?_of_run
    {ws : WebSocket} {jump : Jump} {steps : List (Step System Event)}
    (reachable : Reachable exec {} s)
    (begun : s.landing? ws = some jump)
    (run : Run exec s steps after)
    (waits : ∀ step ∈ steps, ∀ landed,
      step.before.landsNow? step.label ≠ some (ws, landed)) :
    after.landing? ws = some jump := by
  refine run.conditionalInvariant
    (fun current => current.landing? ws = some jump)
    (fun current event => ∀ landed,
      current.landsNow? event ≠ some (ws, landed))
    begun ?_ waits
  rintro current event next ⟨_, later⟩ pending notYet taken
  obtain ⟨_, earlier⟩ := reachable
  have fits := fits_of_reachable (earlier.append later).reachable
  cases acts_of_exec fits taken with
  | asks _ _ _ same | orders _ _ _ _ same | stops _ _ _ same
  | handles _ _ same => rw [same, pending]
  | @accepts own _ _ _ _ _ idle _ _ _ _ others =>
      have different : ws ≠ own := by
        rintro rfl
        rw [idle] at pending
        cases pending
      rw [others ws different, pending]
  | @lands _ own landed _ now _ _ _ others =>
      have different : ws ≠ own := by
        rintro rfl
        exact notYet landed now
      rw [others ws different, pending]

/-- The jump that lands is the one that the tap began. -/
theorem eq_jumpTo_of_lands
    {middle : System} {ws : WebSocket} {songIndex sectionIndex : Int}
    {target : Section} {landed : Jump}
    {steps : List (Step System Event)}
    (reachable : Reachable exec {} s)
    (taken : s.exec (.receive ws (.jump (some songIndex)
      (some sectionIndex))) = some after)
    (primary : s.manager.primary = some ws)
    (found : sectionAt? s.ableton.state songIndex sectionIndex = some target)
    (run : Run exec after steps middle)
    (waits : ∀ step ∈ steps, ∀ landed,
      step.before.landsNow? step.label ≠ some (ws, landed))
    (lands : middle.landsNow? event = some (ws, landed)) :
    landed = jumpTo s.ableton.state target := by
  obtain ⟨_, _, begun⟩ :=
    begins_of_receive (fits_of_reachable reachable) taken primary found
  have inProgress :=
    landing?_of_run (reachable.step taken) begun run waits
  obtain ⟨pending, _⟩ := landing?_of_landsNow? lands
  exact Option.some.inj (pending.symm.trans inProgress)

end System
end AbletonTracks
