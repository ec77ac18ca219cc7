import AbletonTracks.Bridge.CueCache

/-!
# Meters

The bridge asks for the level of every track, notes the replies in a
dictionary, and has it broadcast by a tick of the poll where it differs from
what the last broadcast was scheduled with.  Other than a reply with names,
which puts a new dictionary in its place, a reply changes the dictionary that
a scheduled broadcast is going to read.
-/

namespace AbletonTracks

open Library

namespace AbletonBridge

namespace Event

/-- The track and the level of a reply. -/
def measured? : Event → Option (Int × ℚ)
  | .datagram _ "/live/track/get/output_meter_level" [track, value] =>
      track.int?.bind fun trackId =>
        value.number?.map fun level => (trackId, roundTo 3 level)
  | _ => none

/-- The number of tracks in a reply with their names. -/
def listed? : Event → Option Nat
  | .datagram _ "/live/song/get/track_names" (name :: names) =>
      some (name :: names).length
  | _ => none

theorem listed?_of_measured?
    {event : Event} {reply : Int × ℚ}
    (measured : event.measured? = some reply) :
    event.listed? = none := by
  unfold measured? at measured
  split at measured
  · rfl
  · cases measured

end Event

variable {bridge : AbletonBridge}

/-! ## The levels -/

theorem clearLandedJump_trackMeters (state : AppState) :
    (clearLandedJump state).trackMeters = state.trackMeters := by
  unfold clearLandedJump
  split <;> rfl

theorem handleBeat_trackMeters
    (bridge : AbletonBridge)
    (isBeatBoundary : Bool)
    (args : List OscArgument) :
    (bridge.handleBeat isBeatBoundary args).1.state.trackMeters =
      bridge.state.trackMeters := by
  unfold handleBeat
  split
  · rfl
  · dsimp only
    split
    · rfl
    · rw [clearLandedJump_trackMeters, updateIndices, fireRetarget_state]
      rfl

/-- The levels after an event. -/
def levels (bridge : AbletonBridge) (event : Event) : Dict Int ℚ :=
  match event.measured?, event.listed? with
  | some (trackId, level), _ => bridge.state.trackMeters.insert trackId level
  | none, some count =>
      bridge.state.trackMeters.filterKeys fun index => index < count
  | none, none => bridge.state.trackMeters

/-- Only these two replies change the levels. -/
theorem levels_of_other
    (bridge : AbletonBridge)
    (now : ℚ)
    {address : String}
    (args : List OscArgument)
    (notNames : address ≠ "/live/song/get/track_names")
    (notMeter : address ≠ "/live/track/get/output_meter_level") :
    bridge.levels (.datagram now address args) =
      bridge.state.trackMeters := by
  have silent : Event.measured? (.datagram now address args) = none := by
    unfold Event.measured?
    split
    · rename_i same
      exact absurd (Event.datagram.inj same).2.1 notMeter
    · rfl
  have still : Event.listed? (.datagram now address args) = none := by
    unfold Event.listed?
    split
    · rename_i same
      exact absurd (Event.datagram.inj same).2.1 notNames
    · rfl
  rw [levels, silent, still]

theorem trackMeters_handleTrackMeter
    (bridge : AbletonBridge)
    (now : ℚ)
    (args : List OscArgument) :
    (bridge.handleTrackMeter args).state.trackMeters =
      bridge.levels
        (.datagram now "/live/track/get/output_meter_level" args) := by
  match args with
  | [] | [_] | _ :: _ :: _ :: _ => rfl
  | [track, value] =>
      simp only [handleTrackMeter, levels, Event.measured?, Event.listed?]
      cases track.int? with
      | none => rfl
      | some trackId => cases value.number? <;> rfl

theorem trackMeters_dispatch
    (bridge : AbletonBridge)
    (now : ℚ)
    (address : String)
    (args : List OscArgument) :
    (bridge.dispatch address args).1.state.trackMeters =
      bridge.levels (.datagram now address args) := by
  by_cases notNames : address = "/live/song/get/track_names"
  · subst notNames
    cases args with
    | nil => rfl
    | cons name names =>
        simp [dispatch, handleTrackNames, levels, Event.measured?,
          Event.listed?]
  by_cases notMeter : address = "/live/track/get/output_meter_level"
  · subst notMeter
    exact bridge.trackMeters_handleTrackMeter now args
  rw [levels_of_other bridge now args notNames notMeter]
  unfold dispatch
  split
  · simp only [handleCuePoints]
    split <;> rfl
  · exact handleBeat_trackMeters bridge true args
  · exact handleBeat_trackMeters bridge false args
  · exact absurd rfl notNames
  · unfold handleCueClipNames
    split
    · rfl
    · split
      · rfl
      · split <;> rfl
  · unfold handleTrackMute
    split
    · split <;> rfl
    · rfl
  · exact absurd rfl notMeter
  · unfold handleIsPlaying
    split <;> rfl
  · unfold handleTempo
    split <;> rfl
  · unfold handleSignatureNumerator
    split <;> rfl
  · rfl

/-- What an event does to the levels. -/
theorem trackMeters_handle (bridge : AbletonBridge) (event : Event) :
    (bridge.handle event).1.state.trackMeters = bridge.levels event := by
  cases event with
  | datagram now address args =>
      exact trackMeters_dispatch { bridge with lastReceived := now } now
        address args
  | cuesGenerated | guideAnalyzed | analysisApplied => rfl
  | watchdogTick now =>
      unfold handle watchdog
      dsimp only
      split <;> rfl
  | meterTick =>
      unfold handle pollTrackMeters
      dsimp only
      split <;> rfl

variable {steps : List (Step AbletonBridge Event)}

/-- The level of a track is the one in its last reply, unless a reply with
names has since shown that there is no such track. -/
theorem get?_trackMeters_iff_since
    (run : Run exec {} steps bridge)
    (trackId : Int)
    (level : ℚ) :
    bridge.state.trackMeters.get? trackId = some level ↔
      Since (fun step => step.label.measured? = some (trackId, level))
        (fun step => (∀ other, step.label.measured? ≠ some (trackId, other)) ∧
          ∀ count : Nat, step.label.listed? = some count → trackId < count)
        steps := by
  induction run with
  | nil =>
      refine iff_of_false ?_ not_since_nil
      simp
  | @snoc earlier current after event before taken inductionHypothesis =>
      obtain rfl := Option.some.inj taken
      rw [since_snoc, ← inductionHypothesis, trackMeters_handle, levels]
      cases measured : event.measured? with
      | some reply =>
          obtain ⟨measuredId, measuredLevel⟩ := reply
          rw [Event.listed?_of_measured? measured]
          by_cases same : trackId = measuredId
          · subst same
            simp
          · simp [Dict.get?_insert_of_ne _ same, Ne.symm same]
      | none =>
          cases listed : event.listed? with
          | none => simp
          | some count =>
              by_cases inside : trackId < count
              · simp [Dict.get?_filterKeys, inside]
              · simp [Dict.get?_filterKeys, inside]

/-- The reply of a track comes late, after the names that no longer show it. -/
theorem get?_trackMeters_iff_since_late :
    let names : Event := .datagram 1 "/live/song/get/track_names"
      [⟨"Drums", none, none, true, false⟩]
    let late : Event := .datagram 2 "/live/track/get/output_meter_level"
      [⟨"1", some (.finite 1), some 1, true, false⟩,
        ⟨"0.0", some (.finite 0), some 0, false, false⟩]
    let steps := [(⟨{}, names, (handle {} names).1⟩ : Step AbletonBridge Event),
      ⟨(handle {} names).1, late, ((handle {} names).1.handle late).1⟩]
    Since (fun step => step.label.measured? = some (1, 0))
      (fun step => (∀ other, step.label.measured? ≠ some (1, other)) ∧
        ∀ count : Nat, step.label.listed? = some count → (1 : ℤ) < count)
      steps := by
  intro names late steps
  have run : Run exec {} steps ((handle {} names).1.handle late).1 :=
    (Run.single rfl).snoc rfl
  exact (get?_trackMeters_iff_since run 1 0).mp (by decide +kernel)

/-! ## Broadcasts -/

/-- A tick finds other levels than those of the last broadcast. -/
def Pushes (bridge : AbletonBridge) (event : Event) : Prop :=
  event = .meterTick ∧
    bridge.state.trackMeters.sameItems bridge.lastBroadcastMeters = false

instance (bridge : AbletonBridge) (event : Event) :
    Decidable (bridge.Pushes event) :=
  inferInstanceAs (Decidable (_ ∧ _))

/-- The event has left the broadcasts of the levels alone. -/
def KeepsFeed (bridge : AbletonBridge)
    (result : AbletonBridge × List Effect) : Prop :=
  result.1.lastBroadcastMeters = bridge.lastBroadcastMeters ∧
    Effect.meterUpdate ∉ result.2

theorem keepsFeed_handleBeat
    (bridge : AbletonBridge)
    (isBeatBoundary : Bool)
    (args : List OscArgument) :
    bridge.KeepsFeed (bridge.handleBeat isBeatBoundary args) := by
  have fires : ∀ other : AbletonBridge, other.KeepsFeed other.fireRetarget := by
    intro other
    unfold KeepsFeed fireRetarget
    split
    · simp
    · split <;> simp [clearPendingRetarget]
  unfold KeepsFeed handleBeat
  split
  · simp
  · dsimp only
    split
    · split <;> simp
    · rename_i position _
      obtain ⟨same, silent⟩ := fires (bridge.storePosition position)
      refine ⟨same, ?_⟩
      simp only [List.mem_append, not_or]
      refine ⟨⟨?_, silent⟩, ?_⟩ <;> split <;> simp

theorem keepsFeed_dispatch
    (bridge : AbletonBridge)
    (address : String)
    (args : List OscArgument) :
    bridge.KeepsFeed (bridge.dispatch address args) := by
  unfold dispatch
  split
  · unfold KeepsFeed handleCuePoints
    dsimp only
    split <;> simp
  · exact keepsFeed_handleBeat bridge true args
  · exact keepsFeed_handleBeat bridge false args
  · unfold KeepsFeed handleTrackNames
    dsimp only
    split
    · simp
    · simp only [List.mem_append, not_or, true_and]
      refine ⟨⟨by simp, ?_⟩, by simp⟩
      split <;> simp
  · unfold KeepsFeed handleCueClipNames
    split
    · simp
    · split
      · simp
      · split <;> simp
  · unfold KeepsFeed handleTrackMute
    split
    · split <;> simp
    · simp
  · unfold KeepsFeed handleTrackMeter
    split
    · split <;> simp
    · simp
  · unfold KeepsFeed handleIsPlaying
    split <;> simp
  · unfold KeepsFeed handleTempo
    split <;> simp
  · unfold KeepsFeed handleSignatureNumerator
    split <;> simp
  · simp [KeepsFeed]

theorem keepsFeed_handle
    (bridge : AbletonBridge)
    {event : Event}
    (other : event ≠ .meterTick) :
    bridge.KeepsFeed (bridge.handle event) := by
  cases event with
  | datagram now address args =>
      exact keepsFeed_dispatch { bridge with lastReceived := now } address args
  | cuesGenerated | guideAnalyzed | analysisApplied =>
      simp [KeepsFeed, handle, generateCuesFromTrackDone,
        analyzeGuideTrackDone, applyAnalysisDone, forceRefresh, refresh,
        fetchTracks]
  | watchdogTick now =>
      unfold KeepsFeed handle watchdog
      dsimp only
      split <;> simp
  | meterTick => exact absurd rfl other

/-- Only a tick with other levels has a broadcast scheduled; it notes them. -/
theorem feed_handle (bridge : AbletonBridge) (event : Event) :
    (bridge.handle event).1.lastBroadcastMeters =
        (if bridge.Pushes event then bridge.state.trackMeters
          else bridge.lastBroadcastMeters) ∧
      (bridge.handle event).2.filter (· = .meterUpdate) =
        if bridge.Pushes event then [.meterUpdate] else [] := by
  by_cases tick : event = .meterTick
  · subst tick
    have asks : ((List.range bridge.state.tracks.length).map fun track =>
        Effect.send (.getOutputMeterLevel track)).filter
          (· = .meterUpdate) = [] := by
      simp
    simp only [handle, pollTrackMeters, Pushes, true_and]
    cases bridge.state.trackMeters.sameItems bridge.lastBroadcastMeters with
    | false => simp [asks]
    | true => simp [asks]
  · obtain ⟨same, silent⟩ := bridge.keepsFeed_handle tick
    have quiet : ¬bridge.Pushes event := fun pushes => tick pushes.1
    rw [if_neg quiet, if_neg quiet]
    refine ⟨same, List.filter_eq_nil_iff.mpr fun effect member => ?_⟩
    rw [decide_eq_true_eq]
    rintro rfl
    exact silent member

end AbletonBridge

/-! ## What the broadcasts tell -/

/-- The bridge with the broadcasts of its levels. -/
structure MeterFeed where
  bridge : AbletonBridge := {}
  /-- The broadcasts that were scheduled and have not started, oldest first.
  Each refers to a dictionary: to the one in the state, or to one that has been
  replaced, with these levels. -/
  scheduled : List (Option (Dict Int ℚ)) := []
  /-- The levels in the text of the last broadcast that started.  Whom it
  reaches, and when, is left to its sends. -/
  encoded : Dict Int ℚ := ∅
  deriving DecidableEq

/-- What happens to the levels. -/
inductive FeedEvent
  | handle (event : AbletonBridge.Event)
  /-- The task of the oldest broadcast starts, and encodes its message. -/
  | start
  deriving DecidableEq

namespace MeterFeed

variable {s after : MeterFeed} {steps : List (Step MeterFeed FeedEvent)}

/-- A reply with names puts a new dictionary in place of the one to which the
broadcasts refer. -/
def holding (s : MeterFeed) (event : AbletonBridge.Event) :
    List (Option (Dict Int ℚ)) :=
  match event.listed? with
  | none => s.scheduled
  | some _ => s.scheduled.map fun held =>
      some (held.getD s.bridge.state.trackMeters)

/-- The machine; `on_meter_update` schedules a broadcast. -/
def exec (s : MeterFeed) : FeedEvent → Option MeterFeed
  | .handle event =>
      some { s with
        bridge := (s.bridge.handle event).1
        scheduled := s.holding event ++
          ((s.bridge.handle event).2.filter (· = .meterUpdate)).map
            fun _ => none }
  | .start =>
      match s.scheduled with
      | [] => none
      | held :: scheduled =>
          some { s with
            scheduled := scheduled
            encoded := held.getD s.bridge.state.trackMeters }

/-- A broadcast starts late: the levels are no longer those with which the last
one was scheduled. -/
def StartsLate (step : Step MeterFeed FeedEvent) : Prop :=
  step.label = .start ∧
    step.after.encoded.sameItems step.after.bridge.lastBroadcastMeters = false

instance : DecidablePred StartsLate :=
  fun _ => inferInstanceAs (Decidable (_ ∧ _))

/-- While no broadcast is scheduled, the last text holds the levels of the last
tick that had one scheduled, unless that started late. -/
theorem encoded_iff_not_since_startsLate
    (run : Run exec {} steps s)
    (quiet : s.scheduled = []) :
    s.encoded.sameItems s.bridge.lastBroadcastMeters = true ↔
      ¬Since StartsLate (fun step => step.label ≠ .start) steps := by
  induction run with
  | nil => exact iff_of_true (by decide) not_since_nil
  | @snoc earlier current after event before taken inductionHypothesis =>
      rw [since_snoc]
      cases event with
      | handle event =>
          obtain rfl := Option.some.inj taken
          obtain ⟨noted, pushed⟩ := current.bridge.feed_handle event
          obtain ⟨none', nothing⟩ := List.append_eq_nil_iff.mp quiet
          have still : ¬current.bridge.Pushes event := by
            intro pushes
            rw [pushed, if_pos pushes] at nothing
            cases nothing
          have before' : current.scheduled = [] := by
            unfold holding at none'
            split at none'
            · exact none'
            · exact List.map_eq_nil_iff.mp none'
          rw [noted, if_neg still, inductionHypothesis before']
          simp [StartsLate]
      | start =>
          simp [StartsLate]

/-- A tick schedules no broadcast, with none waiting and other levels in the last
text than the bridge's, exactly where the levels are again those of the last
tick that had one scheduled, but this one started late. -/
theorem stale_iff_since_startsLate
    (run : Run exec {} steps s)
    (quiet : s.scheduled = [])
    (tick : s.exec (.handle .meterTick) = some after) :
    (after.scheduled = [] ∧
        after.encoded.sameItems after.bridge.state.trackMeters = false) ↔
      s.bridge.state.trackMeters.sameItems
          s.bridge.lastBroadcastMeters = true ∧
        Since StartsLate (fun step => step.label ≠ .start) steps := by
  obtain rfl := Option.some.inj tick
  have told := encoded_iff_not_since_startsLate run quiet
  obtain ⟨_, pushed⟩ := s.bridge.feed_handle .meterTick
  have levels : (s.bridge.handle .meterTick).1.state.trackMeters =
      s.bridge.state.trackMeters := s.bridge.trackMeters_handle .meterTick
  have held : s.holding .meterTick = [] := quiet
  simp only [held, pushed, levels, List.nil_append, AbletonBridge.Pushes,
    true_and]
  cases same : s.bridge.state.trackMeters.sameItems
      s.bridge.lastBroadcastMeters with
  | false => simp
  | true =>
      have agree : s.encoded.sameItems s.bridge.state.trackMeters =
          s.encoded.sameItems s.bridge.lastBroadcastMeters := by
        rw [Bool.eq_iff_iff, Dict.sameItems_iff, Dict.sameItems_iff]
        simp only [Dict.sameItems_iff.mp same]
      rw [agree]
      simp only [Bool.true_eq_false, if_false, List.map_nil, true_and]
      rw [← Bool.not_eq_true, told, not_not]

private def levelReply (text : String) (level : ℚ) : FeedEvent :=
  .handle (.datagram 0 "/live/track/get/output_meter_level"
    [⟨"0", some (.finite 0), some 0, false, false⟩,
      ⟨text, some (.finite level), some 0, true, false⟩])

/-- A level goes up before the broadcast of the first one starts, and back
before the next tick: the level in between is the last that was told. -/
theorem stale_iff_since_startsLate_between :
    ∃ steps s after,
      replay exec ({} : MeterFeed)
        [levelReply "0.5" (1 / 2), .handle .meterTick,
          levelReply "0.9" (9 / 10), .start, levelReply "0.5" (1 / 2)] =
          some (steps, s) ∧
      s.exec (.handle .meterTick) = some after ∧
      after.scheduled = [] ∧
      after.encoded.get? 0 = some (9 / 10) ∧
      after.bridge.state.trackMeters.get? 0 = some (1 / 2) ∧
      Since StartsLate (fun step => step.label ≠ .start) steps := by
  have runs : (replay exec ({} : MeterFeed)
      [levelReply "0.5" (1 / 2), .handle .meterTick,
        levelReply "0.9" (9 / 10), .start,
        levelReply "0.5" (1 / 2)]).bind (fun run =>
          (run.2.exec (.handle .meterTick)).map fun after =>
            decide (run.2.scheduled = [] ∧ after.scheduled = [] ∧
              after.encoded.get? 0 = some (9 / 10) ∧
              after.bridge.state.trackMeters.get? 0 = some (1 / 2) ∧
              after.encoded.sameItems after.bridge.state.trackMeters =
                false)) = some true := by
    decide +kernel
  obtain ⟨⟨steps, s⟩, replayed, ticked⟩ := Option.bind_eq_some_iff.mp runs
  obtain ⟨after, tick, checked⟩ := Option.map_eq_some_iff.mp ticked
  obtain ⟨quiet, quiet', told, level, differ⟩ := of_decide_eq_true checked
  exact ⟨steps, s, after, replayed, tick, quiet', told, level,
    ((stale_iff_since_startsLate (run_of_replay replayed) quiet tick).mp
      ⟨quiet', differ⟩).2⟩

end MeterFeed
end AbletonTracks
