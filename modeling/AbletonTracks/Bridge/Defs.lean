import AbletonTracks.Library.Json
import AbletonTracks.Library.Rounding
import AbletonTracks.Parser

/-!
# The Ableton bridge

`AbletonBridge`: the handlers of Ableton's OSC messages and the commands to
Ableton.  A method is modelled by the state it leaves behind and by its
effects in order, the commands it sends and the callbacks it makes.

A handler whose conversion of an argument raises stops there; every handler
converts its arguments before it changes any state.
-/

namespace AbletonTracks

open Library

/-- `CUE_POINT_WARNING_THRESHOLD`. -/
def cuePointWarningThreshold : Nat := 500

/-- `CUE_CLIPS_TRACK_NAME`. -/
def cueClipsTrackName : String := "Cue Clips"

/-- `ABLETON_TIMEOUT`. -/
def abletonTimeout : ℚ := 6

/-- An argument of an OSC message, as the built-in conversions see it. -/
structure OscArgument where
  /-- `str(argument)`. -/
  text : String
  /-- `float(argument)`, unless it raises. -/
  float? : Option Floating
  /-- `int(argument)`, unless it raises. -/
  int? : Option Int
  /-- `bool(argument)`. -/
  truth : Bool
  isNone : Bool := false
  deriving DecidableEq

/-- The finite number that `float(argument)` returns, unless it raises; what
the bridge makes of a report that is not finite is left out. -/
def OscArgument.number? (argument : OscArgument) : Option ℚ :=
  argument.float?.bind Floating.number?

/-- `send_message` can pack the number into an argument: an integer of up to
32 bits is packed with a sign, a longer one into 64 bits, and a float with
single precision. -/
def packs : Number → Bool
  | .bool _ => true
  | .int value =>
      if value.natAbs < 2 ^ 32 then -2 ^ 31 ≤ value ∧ value < 2 ^ 31
      else -2 ^ 63 ≤ value ∧ value < 2 ^ 63
  -- From here on a float rounds to an infinity, which `struct` refuses.
  | .float (.finite value) => |value| < 2 ^ 128 - 2 ^ 103
  | .float _ => true

/-- An OSC message to Ableton. -/
inductive Command
  | getCuePoints
  | getIsPlaying
  | getCurrentSongTime
  | getTempo
  | getSignatureNumerator
  | getTrackNames
  | getOutputMeterLevel (track : Nat)
  | getClipsName (track : Nat)
  | startListenMute (track : Nat)
  | setMute (track : Number) (muted : Bool)
  | cuePointJump (index : Int)
  | setLoopStart (beat : ℚ)
  | setLoopLength (beats : ℚ)
  | setLoop (on : Bool)
  | clipSlotFire (track clip : Nat)
  | setCurrentSongTime (beat : ℚ)
  | startPlaying
  | stopPlaying
  | generateCuesFromTrack (trackName : String)
  deriving DecidableEq

/-- What a method of the bridge does besides changing its state. -/
inductive Effect
  | send (command : Command)
  | positionUpdate
  | stateChange
  | tracksChange
  | meterUpdate
  deriving DecidableEq

/-- A scheduled retarget: at the launch beat, playback snaps to the target.
The source keeps the two in two fields that are always set together. -/
structure Retarget where
  launchBeat : ℚ
  target : ℚ
  deriving DecidableEq

/-- `AbletonBridge`, with the `AppState` it shares with the server. -/
structure AbletonBridge where
  state : AppState := {}
  lastBroadcastMeters : Dict Int ℚ := ∅
  lastReceived : ℚ := 0
  /-- Used to detect cue point changes. -/
  lastRawCues : List (String × ℚ) := []
  lastSection : Int × Int := (-1, -1)
  cueClipsTrackIndex : Option Nat := none
  cueClipIndexByName : Dict String Nat := ∅
  pendingRetarget : Option Retarget := none
  deriving DecidableEq

namespace AbletonBridge

variable (bridge : AbletonBridge)

/-! ## Commands -/

/-- `fetch_tracks`. -/
def fetchTracks : List Effect := [.send .getTrackNames]

/-- `refresh`. -/
def refresh : List Effect :=
  [.send .getCuePoints, .send .getIsPlaying, .send .getCurrentSongTime,
    .send .getTempo, .send .getSignatureNumerator] ++ fetchTracks

/-- `set_track_mute`; the tracks are fetched again a moment later. -/
def setTrackMute (trackIndex : Number) (muted : Bool) : List Effect :=
  [.send (.setMute trackIndex muted)]

/-- `jump_to_cue_index`. -/
def jumpToCueIndex (index : Int) : List Effect :=
  [.send (.cuePointJump index)]

/-- `set_loop_region`. -/
def setLoopRegion (startBeat lengthBeats : ℚ) : List Effect :=
  [.send (.setLoopStart startBeat), .send (.setLoopLength lengthBeats),
    .send (.setLoop true)]

/-- `disable_loop`. -/
def disableLoop : List Effect := [.send (.setLoop false)]

/-- The track and the slot of the cue clip of a section, if it has one. -/
def cueClipForSection? (sectionName : String) : Option (Nat × Nat) := do
  let track ← bridge.cueClipsTrackIndex
  let clip ←
    bridge.cueClipIndexByName.get? (Text.lower (Text.strip sectionName))
  return (track, clip)

/-- `fire_cue_clip_for_section`. -/
def fireCueClipForSection (sectionName : String) : Bool × List Effect :=
  match bridge.cueClipForSection? sectionName with
  | none => (false, [])
  | some (track, clip) => (true, [.send (.clipSlotFire track clip)])

/-- `schedule_downbeat_retarget`. -/
def scheduleDownbeatRetarget (launchBeat targetBeat : ℚ) : AbletonBridge :=
  { bridge with pendingRetarget := some ⟨launchBeat, targetBeat⟩ }

/-- `clear_pending_retarget`. -/
def clearPendingRetarget : AbletonBridge :=
  { bridge with pendingRetarget := none }

/-- `generate_cues_from_track`, up to its wait. -/
def generateCuesFromTrack (trackName : String) : List Effect :=
  [.send (.generateCuesFromTrack trackName)]

/-- `play`. -/
def play : List Effect := [.send .startPlaying]

/-- `stop_playback`. -/
def stopPlayback : List Effect := [.send .stopPlaying]

/-- What follows the wait in `generate_cues_from_track`,
`analyze_guide_track` and `apply_analysis`: force a cache miss, then ask for
everything. -/
def forceRefresh : AbletonBridge × List Effect :=
  ({ bridge with lastRawCues := [] }, refresh)

/-- `generate_cues_from_track`, after its wait. -/
def generateCuesFromTrackDone : AbletonBridge × List Effect :=
  bridge.forceRefresh

/-- `analyze_guide_track`, after its wait. -/
def analyzeGuideTrackDone : AbletonBridge × List Effect :=
  bridge.forceRefresh

/-- `apply_analysis`, after its wait. -/
def applyAnalysisDone : AbletonBridge × List Effect :=
  bridge.forceRefresh

/-! ## OSC handlers -/

/-- The loop of `_handle_cue_points` over the interleaved names and times; a
time that is no number is taken for the next name. -/
def decodeCues : List OscArgument → List CuePoint
  | name :: time :: rest =>
      match time.number? with
      | none => decodeCues (time :: rest)
      | some position => ⟨name.text, position⟩ :: decodeCues rest
  | _ => []

/-- `raw_key`. -/
def rawKey (raw : List CuePoint) : List (String × ℚ) :=
  raw.map fun cue => (cue.name, cue.position)

/-- Set the current indices from the songs and the position. -/
def updateIndices (state : AppState) : AppState :=
  let indices := Parser.findCurrentIndices state.songs state.currentPosition
  { state with
    currentSongIndex := indices.1
    currentSectionIndex := indices.2 }

/-- `_handle_cue_points`. -/
def handleCuePoints (args : List OscArgument) :
    AbletonBridge × List Effect :=
  let raw := decodeCues args
  if rawKey raw = bridge.lastRawCues then (bridge, [])
  else
    let state := updateIndices
      { bridge.state with songs := Parser.parseMarkers raw }
    ({ bridge with
        lastRawCues := rawKey raw
        state := { state with
          cueCount := raw.length
          cueWarning := cuePointWarningThreshold ≤ raw.length } },
      [.stateChange])

/-- The part of `_handle_beat` that stores the position: a large backward jump
likely means a new set, so it clears the cue cache. -/
def storePosition (newPosition : ℚ) : AbletonBridge :=
  { bridge with
    lastRawCues :=
      if newPosition < bridge.state.currentPosition - 8 then []
      else bridge.lastRawCues
    state := { bridge.state with currentPosition := newPosition } }

/-- The part of `_handle_beat` that fires a retarget once its launch beat is
reached. -/
def fireRetarget : AbletonBridge × List Effect :=
  match bridge.pendingRetarget with
  | none => (bridge, [])
  | some retarget =>
      if retarget.launchBeat ≤ bridge.state.currentPosition then
        (bridge.clearPendingRetarget,
          [.send (.setCurrentSongTime retarget.target)])
      else (bridge, [])

/-- The part of `_handle_beat` that clears a queued jump once it has landed. -/
def clearLandedJump (state : AppState) : AppState :=
  if state.queuedSongIndex ≠ -1 ∧
      state.currentSongIndex = state.queuedSongIndex ∧
      state.currentSectionIndex = state.queuedSectionIndex then
    { state with
      queuedSongIndex := -1
      queuedSectionIndex := -1
      queuedLaunchBeat := none }
  else state

/-- `_handle_beat`, for both its addresses. -/
def handleBeat (isBeatBoundary : Bool) (args : List OscArgument) :
    AbletonBridge × List Effect :=
  match args with
  | [] => (bridge, [])
  | first :: _ =>
      let asks := if isBeatBoundary then [Effect.send .getTempo] else []
      match first.number? with
      | none => (bridge, asks)
      | some newPosition =>
          let (bridge, fires) := (bridge.storePosition newPosition).fireRetarget
          let state := clearLandedJump (updateIndices bridge.state)
          let indices := (state.currentSongIndex, state.currentSectionIndex)
          let tells :=
            if indices ≠ bridge.lastSection ∨ isBeatBoundary then
              [Effect.positionUpdate]
            else []
          ({ bridge with state := state, lastSection := indices },
            asks ++ fires ++ tells)

/-- `_handle_is_playing`. -/
def handleIsPlaying (args : List OscArgument) :
    AbletonBridge × List Effect :=
  match args with
  | [] => (bridge, [])
  | first :: _ =>
      ({ bridge with state := { bridge.state with isPlaying := first.truth } },
        [.positionUpdate])

/-- `_handle_tempo`. -/
def handleTempo (args : List OscArgument) : AbletonBridge × List Effect :=
  match args.head?.bind OscArgument.number? with
  | none => (bridge, [])
  | some tempo =>
      ({ bridge with state := { bridge.state with tempo := tempo } },
        [.positionUpdate])

/-- `_handle_signature_numerator`. -/
def handleSignatureNumerator (args : List OscArgument) :
    AbletonBridge × List Effect :=
  match args.head?.bind OscArgument.int? with
  | none => (bridge, [])
  | some numerator =>
      ({ bridge with
          state := { bridge.state with timeSignatureNumerator := numerator } },
        [.positionUpdate])

/-- The mute state that a track had before, by index. -/
def oldMute (tracks : List Track) (index : Nat) : Bool :=
  match tracks.reverse.find? fun track => track.index = index with
  | none => false
  | some track => track.muted

/-- `_handle_track_names`. -/
def handleTrackNames (args : List OscArgument) :
    AbletonBridge × List Effect :=
  let names := args.map OscArgument.text
  if names = [] then (bridge, [])
  else
    let tracks := names.zipIdx.map fun name =>
      (⟨name.2, name.1, oldMute bridge.state.tracks name.2⟩ : Track)
    let cueTrackIndex := names.findIdx? fun name =>
      Text.lower (Text.strip name) = Text.lower cueClipsTrackName
    let moved := cueTrackIndex ≠ bridge.cueClipsTrackIndex
    let asks :=
      if moved then
        cueTrackIndex.toList.map fun index => Effect.send (.getClipsName index)
      else []
    ({ bridge with
        cueClipsTrackIndex := cueTrackIndex
        cueClipIndexByName := if moved then ∅ else bridge.cueClipIndexByName
        state := { bridge.state with
          tracks := tracks
          trackMeters := bridge.state.trackMeters.filterKeys fun index =>
            index < names.length } },
      [.tracksChange] ++ asks ++
        (List.range names.length).map fun index =>
          .send (.startListenMute index))

/-- Mute or unmute the first track with the given index. -/
def setMuted (trackId : Int) (muted : Bool) :
    List Track → Option (List Track)
  | [] => none
  | track :: rest =>
      if track.index = trackId then some ({ track with muted := muted } :: rest)
      else (setMuted trackId muted rest).map fun others => track :: others

/-- `_handle_track_mute`. -/
def handleTrackMute (args : List OscArgument) :
    AbletonBridge × List Effect :=
  match args with
  | [track, value] =>
      match track.int?.bind fun trackId =>
          setMuted trackId value.truth bridge.state.tracks with
      | none => (bridge, [])
      | some tracks =>
          ({ bridge with state := { bridge.state with tracks := tracks } },
            [.tracksChange])
  | _ => (bridge, [])

/-- `_handle_cue_clip_names`. -/
def handleCueClipNames (args : List OscArgument) : AbletonBridge :=
  match args with
  | [] => bridge
  | first :: names =>
      match first.int? with
      | none => bridge
      | some trackIndex =>
          if bridge.cueClipsTrackIndex.map Int.ofNat ≠ some trackIndex then
            bridge
          else
            { bridge with
              cueClipIndexByName := names.zipIdx.foldl
                (fun byName name =>
                  if name.1.isNone then byName
                  else byName.insert
                    (Text.lower (Text.strip name.1.text)) name.2) ∅ }

/-- `_handle_track_meter`. -/
def handleTrackMeter (args : List OscArgument) : AbletonBridge :=
  match args with
  | [track, value] =>
      match track.int?, value.number? with
      | some trackId, some level =>
          { bridge with
            state := { bridge.state with
              trackMeters :=
                bridge.state.trackMeters.insert trackId (roundTo 3 level) } }
      | _, _ => bridge
  | _ => bridge

/-- `_dispatch`. -/
def dispatch (address : String) (args : List OscArgument) :
    AbletonBridge × List Effect :=
  match address with
  | "/live/song/get/cue_points" => bridge.handleCuePoints args
  | "/live/song/get/beat" => bridge.handleBeat true args
  | "/live/song/get/current_song_time" => bridge.handleBeat false args
  | "/live/song/get/track_names" => bridge.handleTrackNames args
  | "/live/track/get/clips/name" => (bridge.handleCueClipNames args, [])
  | "/live/track/get/mute" => bridge.handleTrackMute args
  | "/live/track/get/output_meter_level" => (bridge.handleTrackMeter args, [])
  | "/live/song/get/is_playing" => bridge.handleIsPlaying args
  | "/live/song/get/tempo" => bridge.handleTempo args
  | "/live/song/get/signature_numerator" =>
      bridge.handleSignatureNumerator args
  | _ => (bridge, [])

/-- `datagram_received`, for a datagram that carries one message.  A reply
with the guide clip's path only answers whoever waits for it. -/
def datagramReceived
    (now : ℚ)
    (address : String)
    (args : List OscArgument) : AbletonBridge × List Effect :=
  { bridge with lastReceived := now }.dispatch address args

/-! ## Periodic tasks -/

/-- One tick of `_watchdog`. -/
def watchdog (now : ℚ) : AbletonBridge × List Effect :=
  let connectedNow := decide (now - bridge.lastReceived < abletonTimeout)
  if connectedNow = bridge.state.abletonConnected then (bridge, [])
  else
    ({ bridge with
        state := { bridge.state with
          abletonConnected := connectedNow
          isPlaying := connectedNow && bridge.state.isPlaying } },
      [.stateChange])

/-- One tick of `_poll_track_meters`. -/
def pollTrackMeters : AbletonBridge × List Effect :=
  let asks := (List.range bridge.state.tracks.length).map fun track =>
    Effect.send (.getOutputMeterLevel track)
  if bridge.state.trackMeters.sameItems bridge.lastBroadcastMeters then
    (bridge, asks)
  else
    ({ bridge with lastBroadcastMeters := bridge.state.trackMeters },
      asks ++ [.meterUpdate])

end AbletonBridge
end AbletonTracks
