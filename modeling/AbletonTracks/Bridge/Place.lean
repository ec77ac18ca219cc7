import AbletonTracks.Bridge.CueCache
import AbletonTracks.Parser.Songs

/-!
# Where playback is

Only two handlers move the current song and section: the one for cue points,
which rebuilds the songs, and the one for positions.  Every other event of the
bridge leaves the songs, the position, the indices and the queued jump alone.

The indices are always those of the current position in the current songs, and
they are valid or both -1.
-/

namespace AbletonTracks

open Library

/-- The current song and section. -/
def AppState.indices (state : AppState) : Int × Int :=
  (state.currentSongIndex, state.currentSectionIndex)

/-- The queued jump: its song, its section and its launch beat. -/
def AppState.queued (state : AppState) : Int × Int × Option ℚ :=
  (state.queuedSongIndex, state.queuedSectionIndex, state.queuedLaunchBeat)

/-- A command that moves playback, a loop or a mute. -/
def Command.Drives : Command → Prop
  | .setMute _ _ | .cuePointJump _ | .setLoopStart _ | .setLoopLength _
  | .setLoop _ | .clipSlotFire _ _ | .setCurrentSongTime _ | .startPlaying
  | .stopPlaying => True
  | _ => False

instance : DecidablePred Command.Drives
  | .setMute _ _ | .cuePointJump _ | .setLoopStart _ | .setLoopLength _
  | .setLoop _ | .clipSlotFire _ _ | .setCurrentSongTime _ | .startPlaying
  | .stopPlaying => isTrue trivial
  | .getCuePoints | .getIsPlaying | .getCurrentSongTime | .getTempo
  | .getSignatureNumerator | .getTrackNames | .getOutputMeterLevel _
  | .getClipsName _ | .startListenMute _ | .generateCuesFromTrack _ =>
      isFalse id

/-- The effect sends such a command. -/
def Effect.Drives : Effect → Prop
  | .send command => command.Drives
  | _ => False

namespace AbletonBridge

variable {bridge after : AbletonBridge} {event : Event}
  {args : List OscArgument} {effects : List Effect}

/-! ## What an event does to the place -/

/-- The address of a position report, at a beat boundary or between two. -/
def positionAddress (isBeatBoundary : Bool) : String :=
  if isBeatBoundary then "/live/song/get/beat"
  else "/live/song/get/current_song_time"

/-- The address of the message that an event is about, if it is a message. -/
def Event.address? : Event → Option String
  | .datagram _ address _ => some address
  | _ => none

/-- The songs, the position, the indices and the queued jump are the same. -/
structure SamePlace (bridge after : AbletonBridge) : Prop where
  songs : after.state.songs = bridge.state.songs
  position : after.state.currentPosition = bridge.state.currentPosition
  indices : after.state.indices = bridge.state.indices
  queued : after.state.queued = bridge.state.queued
  lastSection : after.lastSection = bridge.lastSection
  retarget : after.pendingRetarget = bridge.pendingRetarget

theorem SamePlace.refl (bridge : AbletonBridge) : bridge.SamePlace bridge where
  songs := rfl
  position := rfl
  indices := rfl
  queued := rfl
  lastSection := rfl
  retarget := rfl

/-- Every event is a reply with the cue points, a position report, or leaves
the place alone and drives nothing. -/
inductive Handles (bridge : AbletonBridge) :
    Event → AbletonBridge × List Effect → Prop
  | cues {now : ℚ} {args : List OscArgument} :
      Handles bridge (.datagram now cuePointsAddress args)
        ({ bridge with lastReceived := now }.handleCuePoints args)
  | position {now : ℚ} {isBeatBoundary : Bool} {args : List OscArgument} :
      Handles bridge (.datagram now (positionAddress isBeatBoundary) args)
        ({ bridge with lastReceived := now }.handleBeat isBeatBoundary args)
  | other {event : Event} {after : AbletonBridge} {effects : List Effect} :
      event.address? ≠ some cuePointsAddress →
      (∀ isBeatBoundary,
        event.address? ≠ some (positionAddress isBeatBoundary)) →
      bridge.SamePlace after →
      (∀ effect ∈ effects, ¬effect.Drives) →
      Handles bridge event (after, effects)

theorem handleTrackNames_samePlace (args : List OscArgument) :
    bridge.SamePlace (bridge.handleTrackNames args).1 ∧
      ∀ effect ∈ (bridge.handleTrackNames args).2, ¬effect.Drives := by
  simp only [handleTrackNames]
  split
  · exact ⟨.refl bridge, by simp⟩
  · refine ⟨⟨rfl, rfl, rfl, rfl, rfl, rfl⟩, ?_⟩
    intro effect member
    simp only [List.mem_append, List.mem_singleton, List.mem_map] at member
    rcases member with (rfl | asks) | ⟨index, _, rfl⟩
    · exact id
    · split at asks
      · obtain ⟨index, _, rfl⟩ := List.mem_map.mp asks
        exact id
      · cases asks
    · exact id

theorem handleTrackMute_samePlace (args : List OscArgument) :
    bridge.SamePlace (bridge.handleTrackMute args).1 ∧
      ∀ effect ∈ (bridge.handleTrackMute args).2, ¬effect.Drives := by
  unfold handleTrackMute
  split
  · split
    · exact ⟨.refl bridge, by simp⟩
    · refine ⟨⟨rfl, rfl, rfl, rfl, rfl, rfl⟩, ?_⟩
      simp [Effect.Drives, Command.Drives]
  · exact ⟨.refl bridge, by simp⟩

theorem handleCueClipNames_samePlace (args : List OscArgument) :
    bridge.SamePlace (bridge.handleCueClipNames args) := by
  unfold handleCueClipNames
  split
  · exact .refl bridge
  · split
    · exact .refl bridge
    · split
      · exact .refl bridge
      · exact ⟨rfl, rfl, rfl, rfl, rfl, rfl⟩

theorem handleTrackMeter_samePlace (args : List OscArgument) :
    bridge.SamePlace (bridge.handleTrackMeter args) := by
  unfold handleTrackMeter
  split
  · split
    · exact ⟨rfl, rfl, rfl, rfl, rfl, rfl⟩
    · exact .refl bridge
  · exact .refl bridge

/-- The three handlers that store one value and tell the position. -/
theorem handleValue_samePlace :
    (bridge.SamePlace (bridge.handleIsPlaying args).1 ∧
      ∀ effect ∈ (bridge.handleIsPlaying args).2, ¬effect.Drives) ∧
    (bridge.SamePlace (bridge.handleTempo args).1 ∧
      ∀ effect ∈ (bridge.handleTempo args).2, ¬effect.Drives) ∧
    (bridge.SamePlace (bridge.handleSignatureNumerator args).1 ∧
      ∀ effect ∈ (bridge.handleSignatureNumerator args).2,
        ¬effect.Drives) := by
  refine ⟨?_, ?_, ?_⟩
  · unfold handleIsPlaying
    split
    · exact ⟨.refl bridge, by simp⟩
    · refine ⟨⟨rfl, rfl, rfl, rfl, rfl, rfl⟩, ?_⟩
      simp [Effect.Drives, Command.Drives]
  · unfold handleTempo
    split
    · exact ⟨.refl bridge, by simp⟩
    · refine ⟨⟨rfl, rfl, rfl, rfl, rfl, rfl⟩, ?_⟩
      simp [Effect.Drives, Command.Drives]
  · unfold handleSignatureNumerator
    split
    · exact ⟨.refl bridge, by simp⟩
    · refine ⟨⟨rfl, rfl, rfl, rfl, rfl, rfl⟩, ?_⟩
      simp [Effect.Drives, Command.Drives]

/-- A message that is neither a reply with the cue points nor a position
report leaves the place alone. -/
theorem dispatch_samePlace
    (bridge : AbletonBridge)
    {address : String}
    (args : List OscArgument)
    (notCues : address ≠ cuePointsAddress)
    (notPosition : ∀ isBeatBoundary,
      address ≠ positionAddress isBeatBoundary) :
    bridge.SamePlace (bridge.dispatch address args).1 ∧
      ∀ effect ∈ (bridge.dispatch address args).2, ¬effect.Drives := by
  unfold dispatch
  split
  · exact absurd rfl notCues
  · exact absurd rfl (notPosition true)
  · exact absurd rfl (notPosition false)
  · exact handleTrackNames_samePlace args
  · exact ⟨handleCueClipNames_samePlace args, by simp⟩
  · exact handleTrackMute_samePlace args
  · exact ⟨handleTrackMeter_samePlace args, by simp⟩
  · exact handleValue_samePlace.1
  · exact handleValue_samePlace.2.1
  · exact handleValue_samePlace.2.2
  · exact ⟨.refl bridge, by simp⟩

theorem forceRefresh_samePlace (bridge : AbletonBridge) :
    bridge.SamePlace bridge.forceRefresh.1 ∧
      ∀ effect ∈ bridge.forceRefresh.2, ¬effect.Drives := by
  refine ⟨⟨rfl, rfl, rfl, rfl, rfl, rfl⟩, ?_⟩
  simp [forceRefresh, refresh, fetchTracks, Effect.Drives,
    Command.Drives]

theorem watchdog_samePlace (bridge : AbletonBridge) (now : ℚ) :
    bridge.SamePlace (bridge.watchdog now).1 ∧
      ∀ effect ∈ (bridge.watchdog now).2, ¬effect.Drives := by
  simp only [watchdog]
  split
  · exact ⟨.refl bridge, by simp⟩
  · refine ⟨⟨rfl, rfl, rfl, rfl, rfl, rfl⟩, ?_⟩
    simp [Effect.Drives, Command.Drives]

theorem pollTrackMeters_samePlace (bridge : AbletonBridge) :
    bridge.SamePlace bridge.pollTrackMeters.1 ∧
      ∀ effect ∈ bridge.pollTrackMeters.2, ¬effect.Drives := by
  have asks : ∀ effect ∈ (List.range bridge.state.tracks.length).map
      (fun track => Effect.send (.getOutputMeterLevel track)),
      ¬effect.Drives := by
    intro effect member
    obtain ⟨track, _, rfl⟩ := List.mem_map.mp member
    exact id
  simp only [pollTrackMeters]
  split
  · exact ⟨.refl bridge, asks⟩
  · refine ⟨⟨rfl, rfl, rfl, rfl, rfl, rfl⟩, ?_⟩
    intro effect member
    rcases List.mem_append.mp member with asked | tells
    · exact asks effect asked
    · obtain rfl := List.mem_singleton.mp tells
      exact id

/-- Every event is handled in one of three ways. -/
theorem handles (bridge : AbletonBridge) (event : Event) :
    bridge.Handles event (bridge.handle event) := by
  cases event with
  | datagram now address args =>
      by_cases cues : address = cuePointsAddress
      · subst cues
        exact .cues
      by_cases position : ∃ isBeatBoundary,
          address = positionAddress isBeatBoundary
      · obtain ⟨isBeatBoundary, rfl⟩ := position
        cases isBeatBoundary with
        | false => exact .position
        | true => exact .position
      · rw [not_exists] at position
        obtain ⟨same, drives⟩ :=
          dispatch_samePlace { bridge with lastReceived := now } args cues
            position
        refine .other ?_ ?_ ?_ drives
        · simpa [Event.address?] using cues
        · simpa [Event.address?] using position
        · exact ⟨same.songs, same.position, same.indices, same.queued,
            same.lastSection, same.retarget⟩
  | cuesGenerated | guideAnalyzed | analysisApplied =>
      obtain ⟨same, drives⟩ := forceRefresh_samePlace bridge
      exact .other (by simp [Event.address?]) (by simp [Event.address?])
        same drives
  | watchdogTick now =>
      obtain ⟨same, drives⟩ := watchdog_samePlace bridge now
      exact .other (by simp [Event.address?]) (by simp [Event.address?])
        same drives
  | meterTick =>
      obtain ⟨same, drives⟩ := pollTrackMeters_samePlace bridge
      exact .other (by simp [Event.address?]) (by simp [Event.address?])
        same drives

/-! ## The current indices -/

/-- The songs are parsed from some cue points, and the indices are those of
the position in them. -/
structure IndicesFit (state : AppState) : Prop where
  parsed : ∃ cues, state.songs = Parser.parseMarkers cues
  current : state.indices =
    Parser.findCurrentIndices state.songs state.currentPosition

theorem indicesFit_initial : IndicesFit {} where
  parsed := ⟨[], rfl⟩
  current := rfl

/-- Setting the indices makes them fit. -/
theorem indicesFit_updateIndices
    {state : AppState}
    (parsed : ∃ cues, state.songs = Parser.parseMarkers cues) :
    IndicesFit (updateIndices state) where
  parsed := parsed
  current := rfl

theorem IndicesFit.congr
    {state later : AppState}
    (fits : IndicesFit state)
    (songs : later.songs = state.songs)
    (position : later.currentPosition = state.currentPosition)
    (indices : later.indices = state.indices) :
    IndicesFit later where
  parsed := songs ▸ fits.parsed
  current := by rw [indices, songs, position, fits.current]

/-- Clearing a queued jump moves nothing. -/
theorem IndicesFit.clearLandedJump
    {state : AppState}
    (fits : IndicesFit state) :
    IndicesFit (clearLandedJump state) := by
  unfold AbletonBridge.clearLandedJump
  split
  · exact fits.congr rfl rfl rfl
  · exact fits

theorem indicesFit_handleCuePoints
    (bridge : AbletonBridge)
    (fits : IndicesFit bridge.state)
    (args : List OscArgument) :
    IndicesFit (bridge.handleCuePoints args).1.state := by
  simp only [handleCuePoints]
  split
  · exact fits
  · exact (indicesFit_updateIndices ⟨_, rfl⟩).congr rfl rfl rfl

theorem indicesFit_handleBeat
    (bridge : AbletonBridge)
    (fits : IndicesFit bridge.state)
    (isBeatBoundary : Bool)
    (args : List OscArgument) :
    IndicesFit (bridge.handleBeat isBeatBoundary args).1.state := by
  cases args with
  | nil => exact fits
  | cons first rest =>
      simp only [handleBeat]
      cases first.number? with
      | none => exact fits
      | some newPosition =>
          refine (indicesFit_updateIndices ?_).clearLandedJump
          simpa [storePosition] using fits.parsed

/-- A position report leaves the songs alone. -/
theorem handleBeat_songs
    (bridge : AbletonBridge)
    (isBeatBoundary : Bool)
    (args : List OscArgument) :
    (bridge.handleBeat isBeatBoundary args).1.state.songs =
      bridge.state.songs := by
  cases args with
  | nil => rfl
  | cons first rest =>
      simp only [handleBeat]
      cases first.number? with
      | none => rfl
      | some newPosition => simp [updateIndices, storePosition]

/-- No event of the bridge leaves wrong indices behind. -/
theorem indicesFit_handle
    (bridge : AbletonBridge)
    (fits : IndicesFit bridge.state)
    (event : Event) :
    IndicesFit (bridge.handle event).1.state := by
  have handled := bridge.handles event
  generalize bridge.handle event = result at handled
  cases handled with
  | @cues now args =>
      exact indicesFit_handleCuePoints { bridge with lastReceived := now }
        fits args
  | @position now isBeatBoundary args =>
      exact indicesFit_handleBeat { bridge with lastReceived := now } fits
        isBeatBoundary args
  | other _ _ same _ =>
      exact fits.congr same.songs same.position same.indices

/-- Indices that fit are both -1, or those of a section. -/
theorem IndicesFit.pointsInto
    {state : AppState}
    (fits : IndicesFit state) :
    state.indices = (-1, -1) ∨
      Parser.PointsInto state.songs state.indices := by
  obtain ⟨cues, songs⟩ := fits.parsed
  rw [fits.current, songs]
  exact Parser.pointsInto_findCurrentIndices
    (fun _ member => Parser.parsed_of_mem_parseMarkers member) _

/-! ## The queued jump -/

/-- A reply with the cue points leaves the queued jump, the play state and the
retarget alone. -/
theorem handleCuePoints_keeps
    (bridge : AbletonBridge)
    (args : List OscArgument) :
    (bridge.handleCuePoints args).1.state.queued = bridge.state.queued ∧
      (bridge.handleCuePoints args).1.state.isPlaying =
        bridge.state.isPlaying ∧
      (bridge.handleCuePoints args).1.pendingRetarget =
        bridge.pendingRetarget := by
  simp only [handleCuePoints]
  split
  · exact ⟨rfl, rfl, rfl⟩
  · exact ⟨rfl, rfl, rfl⟩

/-- A position report leaves the play state alone. -/
theorem handleBeat_isPlaying
    (bridge : AbletonBridge)
    (isBeatBoundary : Bool)
    (args : List OscArgument) :
    (bridge.handleBeat isBeatBoundary args).1.state.isPlaying =
      bridge.state.isPlaying := by
  cases args with
  | nil => rfl
  | cons first rest =>
      simp only [handleBeat]
      cases first.number? with
      | none => rfl
      | some newPosition =>
          simp only [clearLandedJump, fireRetarget_state]
          split
          · rfl
          · rfl

theorem handleBeat_queued_cases
    (bridge : AbletonBridge)
    (isBeatBoundary : Bool)
    (args : List OscArgument) :
    (bridge.handleBeat isBeatBoundary args).1.state.queued =
        bridge.state.queued ∨
      (bridge.handleBeat isBeatBoundary args).1.state.queued =
        (-1, -1, none) := by
  cases args with
  | nil => exact Or.inl rfl
  | cons first rest =>
      simp only [handleBeat]
      cases first.number? with
      | none => exact Or.inl rfl
      | some newPosition =>
          simp only [clearLandedJump, fireRetarget_state]
          split
          · exact Or.inr rfl
          · exact Or.inl rfl

/-- An event leaves the queued jump alone or clears it. -/
theorem queued_handle (bridge : AbletonBridge) (event : Event) :
    (bridge.handle event).1.state.queued = bridge.state.queued ∨
      (bridge.handle event).1.state.queued = (-1, -1, none) := by
  have handled := bridge.handles event
  generalize bridge.handle event = result at handled
  cases handled with
  | @cues now args =>
      exact Or.inl (handleCuePoints_keeps { bridge with lastReceived := now }
        args).1
  | @position now isBeatBoundary args =>
      exact handleBeat_queued_cases { bridge with lastReceived := now }
        isBeatBoundary args
  | other _ _ same _ => exact Or.inl same.queued

/-! ## The pending retarget -/

/-- The position that an event reports. -/
def reportedPosition? : Event → Option ℚ
  | .datagram _ address args =>
      if address = positionAddress true ∨ address = positionAddress false then
        args.head?.bind OscArgument.number?
      else none
  | _ => none

/-- The retarget whose launch beat a position reaches. -/
def retargetAt? (bridge : AbletonBridge) (position : ℚ) : Option Retarget :=
  bridge.pendingRetarget.filter fun retarget =>
    retarget.launchBeat ≤ position

/-- The retarget that an event makes due. -/
def dueRetarget? (bridge : AbletonBridge) (event : Event) : Option Retarget :=
  (reportedPosition? event).bind bridge.retargetAt?

theorem reportedPosition?_position
    (now : ℚ)
    (isBeatBoundary : Bool)
    (args : List OscArgument) :
    reportedPosition? (.datagram now (positionAddress isBeatBoundary) args) =
      args.head?.bind OscArgument.number? := by
  cases isBeatBoundary <;> simp [reportedPosition?]

theorem reportedPosition?_of_address
    {event : Event}
    (notPosition : ∀ isBeatBoundary,
      event.address? ≠ some (positionAddress isBeatBoundary)) :
    reportedPosition? event = none := by
  cases event with
  | datagram now address args =>
      refine if_neg ?_
      rintro (atBeat | between)
      · exact notPosition true (congrArg some atBeat)
      · exact notPosition false (congrArg some between)
  | _ => rfl

/-- Reaching the launch beat snaps playback to the target, once. -/
theorem fireRetarget_eq (bridge : AbletonBridge) :
    bridge.fireRetarget.2 =
      ((bridge.retargetAt? bridge.state.currentPosition).toList.map
        fun retarget => .send (.setCurrentSongTime retarget.target)) ∧
    bridge.fireRetarget.1.pendingRetarget =
      (bridge.retargetAt? bridge.state.currentPosition).elim
        bridge.pendingRetarget fun _ => none := by
  unfold fireRetarget retargetAt?
  cases pending : bridge.pendingRetarget with
  | none => simp [pending]
  | some retarget =>
      by_cases reached : retarget.launchBeat ≤ bridge.state.currentPosition
      · simp [Option.filter, reached, clearPendingRetarget]
      · simp [Option.filter, reached, pending]

theorem handleBeat_retarget
    (bridge : AbletonBridge)
    (isBeatBoundary : Bool)
    (args : List OscArgument) :
    (∀ target, .send (.setCurrentSongTime target) ∈
        (bridge.handleBeat isBeatBoundary args).2 ↔
      ∃ retarget ∈ (args.head?.bind OscArgument.number?).bind
        bridge.retargetAt?, retarget.target = target) ∧
    (bridge.handleBeat isBeatBoundary args).1.pendingRetarget =
      ((args.head?.bind OscArgument.number?).bind bridge.retargetAt?).elim
        bridge.pendingRetarget fun _ => none := by
  have silent : ∀ target, Effect.send (.setCurrentSongTime target) ∉
      if isBeatBoundary then [Effect.send .getTempo] else [] := by
    intro target
    split <;> simp
  cases args with
  | nil => simp [handleBeat]
  | cons first rest =>
      simp only [List.head?_cons, Option.bind_some]
      cases number : first.number? with
      | none =>
          simp only [handleBeat, number]
          simp [silent]
      | some newPosition =>
          obtain ⟨fires, pending⟩ :=
            fireRetarget_eq (bridge.storePosition newPosition)
          simp only [handleBeat, number, fires, pending, Option.bind_some]
          refine ⟨fun target => ?_, rfl⟩
          have quiet : ∀ told : Prop, ∀ [Decidable told],
              Effect.send (.setCurrentSongTime target) ∉
                if told then [Effect.positionUpdate] else [] := by
            intro told _
            split <;> simp
          simp only [List.mem_append, silent, quiet, false_or, or_false,
            List.mem_map, Option.mem_toList, Effect.send.injEq,
            Command.setCurrentSongTime.injEq]
          exact Iff.rfl

/-- A position report asks for the tempo and snaps playback, at most. -/
theorem handleBeat_sends
    {isBeatBoundary : Bool} {command : Command}
    (member : .send command ∈ (bridge.handleBeat isBeatBoundary args).2) :
    command = .getTempo ∨ ∃ beat, command = .setCurrentSongTime beat := by
  have asked : Effect.send command ∈
      (if isBeatBoundary then [Effect.send .getTempo] else []) →
      command = .getTempo := by
    intro asks
    split at asks
    · simpa using asks
    · cases asks
  cases args with
  | nil => cases member
  | cons first rest =>
      simp only [handleBeat] at member
      cases number : first.number? with
      | none =>
          rw [number] at member
          exact Or.inl (asked member)
      | some newPosition =>
          simp only [number, (fireRetarget_eq _).1, List.mem_append] at member
          rcases member with (asks | fires) | tells
          · exact Or.inl (asked asks)
          · obtain ⟨retarget, _, same⟩ := List.mem_map.mp fires
            injection same with same
            exact Or.inr ⟨retarget.target, same.symm⟩
          · split at tells
            · simp at tells
            · cases tells

/-- An event snaps playback to the target of the retarget that is due, and
leaves any other one pending. -/
theorem handle_retarget (bridge : AbletonBridge) (event : Event) :
    (∀ target, .send (.setCurrentSongTime target) ∈ (bridge.handle event).2 ↔
      ∃ retarget ∈ bridge.dueRetarget? event, retarget.target = target) ∧
    (bridge.handle event).1.pendingRetarget =
      (bridge.dueRetarget? event).elim bridge.pendingRetarget
        fun _ => none := by
  have handled := bridge.handles event
  generalize bridge.handle event = result at handled
  cases handled with
  | @cues now args =>
      have notDue : bridge.dueRetarget?
          (.datagram now cuePointsAddress args) = none := by
        simp [dueRetarget?, reportedPosition?, cuePointsAddress,
          positionAddress]
      rw [notDue]
      simp only [handleCuePoints]
      split <;> simp
  | @position now isBeatBoundary args =>
      rw [dueRetarget?, reportedPosition?_position]
      exact handleBeat_retarget { bridge with lastReceived := now }
        isBeatBoundary args
  | @other _ after effects _ notPosition same drives =>
      rw [dueRetarget?, reportedPosition?_of_address notPosition]
      refine ⟨fun target => ?_, same.retarget⟩
      refine iff_of_false (fun sent => drives _ sent trivial) ?_
      simp

/-! ## When the queued jump is cleared -/

theorem clearLandedJump_queued (state : AppState) :
    (clearLandedJump state).queued =
      if state.queuedSongIndex ≠ -1 ∧
          state.indices = (state.queuedSongIndex, state.queuedSectionIndex)
        then (-1, -1, none)
      else state.queued := by
  simp only [clearLandedJump, AppState.indices, Prod.mk.injEq]
  split
  · rfl
  · rfl

theorem handleBeat_queued
    (bridge : AbletonBridge)
    (isBeatBoundary : Bool)
    {args : List OscArgument}
    {position : ℚ}
    (reported : args.head?.bind OscArgument.number? = some position) :
    (bridge.handleBeat isBeatBoundary args).1.state.queued =
      if bridge.state.queuedSongIndex ≠ -1 ∧
          Parser.findCurrentIndices bridge.state.songs position =
            (bridge.state.queuedSongIndex, bridge.state.queuedSectionIndex)
        then (-1, -1, none)
      else bridge.state.queued := by
  cases args with
  | nil => cases reported
  | cons first rest =>
      have number : first.number? = some position := reported
      simp only [handleBeat, number, fireRetarget_state]
      exact clearLandedJump_queued _

/-- A position report clears the queued jump exactly when playback is in the
section that it goes to. -/
theorem queued_of_reported
    (bridge : AbletonBridge)
    {event : Event}
    {position : ℚ}
    (reported : reportedPosition? event = some position) :
    (bridge.handle event).1.state.queued =
      if bridge.state.queuedSongIndex ≠ -1 ∧
          Parser.findCurrentIndices bridge.state.songs position =
            (bridge.state.queuedSongIndex, bridge.state.queuedSectionIndex)
        then (-1, -1, none)
      else bridge.state.queued := by
  have handled := bridge.handles event
  generalize bridge.handle event = result at handled
  cases handled with
  | cues =>
      simp [reportedPosition?, cuePointsAddress, positionAddress] at reported
  | @position now isBeatBoundary args =>
      rw [reportedPosition?_position] at reported
      exact handleBeat_queued { bridge with lastReceived := now }
        isBeatBoundary reported
  | other _ notPosition _ _ =>
      rw [reportedPosition?_of_address notPosition] at reported
      cases reported

end AbletonBridge
end AbletonTracks
