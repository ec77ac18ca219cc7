import AbletonTracks.Bridge.CueCache
import Mathlib.Algebra.Order.Ring.Rat
import Mathlib.Tactic.Linarith

/-!
# The watchdog

`_watchdog` compares the time since the last datagram with a timeout at every
tick, but it resets `is_playing` only on the tick at which the connection is
lost.  A datagram may set it again while the connection still counts as lost.
Ticks closer together than the timeout make up for that: the next one finds
the datagram fresh, and the connection restored.
-/

namespace AbletonTracks

open Library

namespace AbletonBridge

variable {bridge : AbletonBridge}

/-! ## What a message leaves alone -/

/-- The same connection, and the same last sign of life. -/
structure SameConnection (bridge after : AbletonBridge) : Prop where
  lastReceived : after.lastReceived = bridge.lastReceived
  connected :
    after.state.abletonConnected = bridge.state.abletonConnected

theorem fireRetarget_lastReceived (bridge : AbletonBridge) :
    bridge.fireRetarget.1.lastReceived = bridge.lastReceived := by
  obtain ⟨_, fired⟩ := bridge.fireRetarget_fst
  rw [fired]

theorem clearLandedJump_abletonConnected (state : AppState) :
    (clearLandedJump state).abletonConnected = state.abletonConnected := by
  unfold clearLandedJump
  split <;> rfl

theorem handleBeat_sameConnection
    (bridge : AbletonBridge)
    (isBeatBoundary : Bool)
    (args : List OscArgument) :
    bridge.SameConnection (bridge.handleBeat isBeatBoundary args).1 := by
  unfold handleBeat
  split
  · exact ⟨rfl, rfl⟩
  · dsimp only
    split
    · exact ⟨rfl, rfl⟩
    · constructor
      · exact fireRetarget_lastReceived _
      · rw [clearLandedJump_abletonConnected, fireRetarget_state]
        rfl

/-- No message touches the connection; only its arrival does. -/
theorem dispatch_sameConnection
    (bridge : AbletonBridge)
    (address : String)
    (args : List OscArgument) :
    bridge.SameConnection (bridge.dispatch address args).1 := by
  have handled := bridge.dispatched address args
  generalize (bridge.dispatch address args).1 = after at handled
  cases handled with
  | cuePoints =>
      simp only [handleCuePoints]
      split <;> exact ⟨rfl, rfl⟩
  | position isBeatBoundary =>
      exact handleBeat_sameConnection bridge isBeatBoundary args
  | trackNames =>
      simp only [handleTrackNames]
      split <;> exact ⟨rfl, rfl⟩
  | clipNames =>
      unfold handleCueClipNames
      split
      · exact ⟨rfl, rfl⟩
      · split
        · exact ⟨rfl, rfl⟩
        · split <;> exact ⟨rfl, rfl⟩
  | values => exact ⟨rfl, rfl⟩

/-- `datagram_received`, for a bundle: the messages that are dispatched, up to
one whose handler raises.  None are where the datagram cannot be parsed. -/
def bundleReceived
    (bridge : AbletonBridge)
    (now : ℚ)
    (messages : List (String × List OscArgument)) : AbletonBridge :=
  messages.foldl (fun bridge message => (bridge.dispatch message.1 message.2).1)
    { bridge with lastReceived := now }

theorem bundleReceived_connection
    (bridge : AbletonBridge)
    (now : ℚ)
    (messages : List (String × List OscArgument)) :
    (bridge.bundleReceived now messages).lastReceived = now ∧
      (bridge.bundleReceived now messages).state.abletonConnected =
        bridge.state.abletonConnected := by
  induction messages using List.reverseRecOn with
  | nil => exact ⟨rfl, rfl⟩
  | append_singleton early last inductionHypothesis =>
      obtain ⟨lastReceived, connected⟩ := inductionHypothesis
      have same := dispatch_sameConnection (bridge.bundleReceived now early)
        last.1 last.2
      rw [bundleReceived, List.foldl_append]
      exact ⟨same.lastReceived.trans lastReceived,
        same.connected.trans connected⟩

/-! ## One tick -/

theorem watchdog_lastReceived (bridge : AbletonBridge) (now : ℚ) :
    (bridge.watchdog now).1.lastReceived = bridge.lastReceived := by
  unfold watchdog
  dsimp only
  split <;> rfl

/-- A tick leaves the connection as the time since the last datagram says. -/
theorem watchdog_abletonConnected (bridge : AbletonBridge) (now : ℚ) :
    (bridge.watchdog now).1.state.abletonConnected =
      decide (now - bridge.lastReceived < abletonTimeout) := by
  unfold watchdog
  dsimp only
  split
  · rename_i same
    exact same.symm
  · rfl

/-- A tick that finds the connection lost leaves nothing playing, if nothing
was playing where it was lost before. -/
theorem watchdog_isPlaying
    {now : ℚ}
    (silent : abletonTimeout ≤ now - bridge.lastReceived)
    (stopped : bridge.state.abletonConnected = false →
      bridge.state.isPlaying = false) :
    (bridge.watchdog now).1.state.isPlaying = false := by
  have lost : decide (now - bridge.lastReceived < abletonTimeout) = false :=
    decide_eq_false (not_lt.mpr silent)
  unfold watchdog
  simp only [lost]
  split
  · rename_i same
    exact stopped same.symm
  · rfl

end AbletonBridge

/-! ## Timed runs -/

/-- What the connection depends on. -/
inductive LinkEvent
  | datagram (messages : List (String × List OscArgument))
  | tick
  deriving DecidableEq

/-- The bridge on a clock. -/
structure Link where
  bridge : AbletonBridge
  now : ℚ
  /-- When the last datagram arrived; the start of the bridge stands for one,
  as it does in the source. -/
  lastDatagram : ℚ
  /-- When the watchdog ticked last. -/
  lastTick? : Option ℚ := none
  deriving DecidableEq

namespace Link

variable {link after : Link} {begun : ℚ}

/-- The bridge has just been created. -/
def started (begun : ℚ) : Link where
  bridge := { lastReceived := begun }
  now := begun
  lastDatagram := begun

/-- The clock does not go back, and ticks follow each other in less than the
timeout. -/
def exec (link : Link) (event : ℚ × LinkEvent) : Option Link :=
  if event.1 < link.now then none
  else
    match event.2 with
    | .datagram messages =>
        some { link with
          bridge := link.bridge.bundleReceived event.1 messages
          now := event.1
          lastDatagram := event.1 }
    | .tick =>
        if ∃ previous ∈ link.lastTick?,
            abletonTimeout ≤ event.1 - previous then none
        else
          some { link with
            bridge := (link.bridge.watchdog event.1).1
            now := event.1
            lastTick? := some event.1 }

/-- What a step does, with what its time must meet. -/
theorem exec_cases
    {event : ℚ × LinkEvent}
    (taken : link.exec event = some after) :
    link.now ≤ event.1 ∧
      ((∃ messages, event.2 = .datagram messages ∧
        after = { link with
          bridge := link.bridge.bundleReceived event.1 messages
          now := event.1
          lastDatagram := event.1 }) ∨
      (event.2 = .tick ∧
        (∀ previous ∈ link.lastTick?, event.1 - previous < abletonTimeout) ∧
        after = { link with
          bridge := (link.bridge.watchdog event.1).1
          now := event.1
          lastTick? := some event.1 })) := by
  unfold exec at taken
  split at taken
  · cases taken
  · rename_i forward
    refine ⟨not_lt.mp forward, ?_⟩
    split at taken
    · rename_i messages own
      exact Or.inl ⟨messages, own, (Option.some.inj taken).symm⟩
    · rename_i own
      split at taken
      · cases taken
      · rename_i close
        refine Or.inr ⟨own, ?_, (Option.some.inj taken).symm⟩
        exact fun previous member => not_le.mp fun apart =>
          close ⟨previous, member, apart⟩

/-- Where the connection counts as lost there was a tick, and what plays was
heard of since. -/
structure Watched (link : Link) : Prop where
  lastReceived : link.bridge.lastReceived = link.lastDatagram
  past : ∀ tick ∈ link.lastTick?, tick ≤ link.now
  stopped : link.bridge.state.abletonConnected = false →
    ∃ tick ∈ link.lastTick?,
      link.bridge.state.isPlaying = false ∨ tick ≤ link.lastDatagram

theorem watched_started (begun : ℚ) : (started begun).Watched where
  lastReceived := rfl
  past := by simp [started]
  stopped := fun lost => by cases lost

/-- The connection shows the age of the last datagram, and nothing plays while
it is lost. -/
def Shows (link : Link) : Prop :=
  (link.bridge.state.abletonConnected = true ↔
    link.now - link.lastDatagram < abletonTimeout) ∧
  (link.bridge.state.abletonConnected = false →
    link.bridge.state.isPlaying = false)

/-- A tick shows the truth: what was heard since the last one is not old
enough to count as lost. -/
theorem Watched.shows_tick
    {now : ℚ}
    (watched : link.Watched)
    (close : ∀ previous ∈ link.lastTick?, now - previous < abletonTimeout) :
    Shows { link with
      bridge := (link.bridge.watchdog now).1
      now := now
      lastTick? := some now } := by
  have connected := AbletonBridge.watchdog_abletonConnected link.bridge now
  rw [watched.lastReceived] at connected
  refine ⟨by rw [connected, decide_eq_true_iff], fun lost => ?_⟩
  have silent : abletonTimeout ≤ now - link.bridge.lastReceived := by
    rw [watched.lastReceived]
    exact not_lt.mp (of_decide_eq_false (connected.symm.trans lost))
  refine AbletonBridge.watchdog_isPlaying silent fun earlier => ?_
  obtain ⟨tick, member, notPlaying | heard⟩ := watched.stopped earlier
  · exact notPlaying
  · -- The datagram came after the last tick, so it is still fresh.
    have fresh := close tick member
    rw [watched.lastReceived] at silent
    linarith

theorem watched_exec
    {event : ℚ × LinkEvent}
    (watched : link.Watched)
    (taken : link.exec event = some after) :
    after.Watched := by
  obtain ⟨forward, ⟨messages, _, rfl⟩ | ⟨_, close, rfl⟩⟩ := exec_cases taken
  · obtain ⟨lastReceived, connected⟩ :=
      link.bridge.bundleReceived_connection event.1 messages
    refine ⟨lastReceived, ?_, ?_⟩
    · exact fun tick member => (watched.past tick member).trans forward
    · intro lost
      obtain ⟨tick, member, _⟩ := watched.stopped (connected ▸ lost)
      exact ⟨tick, member, Or.inr ((watched.past tick member).trans forward)⟩
  · refine ⟨?_, ?_, ?_⟩
    · exact (link.bridge.watchdog_lastReceived event.1).trans
        watched.lastReceived
    · intro tick member
      exact (Option.some.inj member).ge
    · exact fun lost =>
        ⟨event.1, rfl, Or.inl ((watched.shows_tick close).2 lost)⟩

theorem watched_of_run
    {steps : List (Step Link (ℚ × LinkEvent))}
    (run : Run exec (started begun) steps link) :
    link.Watched :=
  run.invariant Watched (watched_started begun)
    fun _ _ _ watched taken => watched_exec watched taken

/-- After every tick the connection counts as lost exactly when the last
datagram is as old as the timeout, and then nothing plays. -/
theorem shows_after_tick
    {steps : List (Step Link (ℚ × LinkEvent))}
    {step : Step Link (ℚ × LinkEvent)}
    (run : Run exec (started begun) steps link)
    (member : step ∈ steps)
    (ticks : step.label.2 = .tick) :
    step.after.Shows := by
  obtain ⟨early, late, rfl⟩ := List.append_of_mem member
  obtain ⟨before, taken, _⟩ := run.split
  obtain ⟨_, ⟨_, other, _⟩ | ⟨_, close, result⟩⟩ := exec_cases taken
  · rw [ticks] at other
    cases other
  · rw [result]
    exact (watched_of_run before).shows_tick close

/-- Playing is reported while the connection counts as lost, and found fresh
by the next tick. -/
theorem shows_after_tick_report :
    ∃ steps step finish,
      replay exec (started 0) [(1, .tick), (6, .tick),
        (13 / 2, .datagram [("/live/song/get/is_playing",
          [⟨"1", some (.finite 1), some 1, true, false⟩])]), (7, .tick)] =
        some (steps, finish) ∧
      step ∈ steps ∧ step.label = (7, .tick) ∧
      step.before.bridge.state.abletonConnected = false ∧
      step.before.bridge.state.isPlaying = true ∧ step.after.Shows := by
  have runs : (replay exec (started 0) [(1, .tick), (6, .tick),
      (13 / 2, .datagram [("/live/song/get/is_playing",
        [⟨"1", some (.finite 1), some 1, true, false⟩])]), (7, .tick)]).map
      (fun result => result.1.getLast?.map fun step =>
        (step.label, step.before.bridge.state.abletonConnected,
          step.before.bridge.state.isPlaying)) =
      some (some ((7, .tick), false, true)) := by
    decide +kernel
  obtain ⟨⟨steps, finish⟩, replayed, facts⟩ := Option.map_eq_some_iff.mp runs
  obtain ⟨step, last, facts⟩ := Option.map_eq_some_iff.mp facts
  simp only [Prod.mk.injEq] at facts
  obtain ⟨label, lost, playing⟩ := facts
  have member := List.mem_of_getLast? last
  exact ⟨steps, step, finish, replayed, member, label, lost, playing,
    shows_after_tick (run_of_replay replayed) member (by rw [label])⟩

end Link
end AbletonTracks
