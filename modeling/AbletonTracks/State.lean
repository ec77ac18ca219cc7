import Mathlib.Data.Rat.Defs
import AbletonTracks.Library.Dict

/-!
# Shared live state

The single `AppState` that the Ableton bridge writes and the WebSocket server
reads, with the snapshots that are sent to the devices.  Positions, lengths
and tempi are exact rationals: every finite float is one.
-/

namespace AbletonTracks

open Library

/-- One entry of a song's section list, as `parse_markers` builds it. -/
structure Section where
  name : String
  position : ℚ
  /-- Index into Ableton's own, unsorted cue list. -/
  cueIndex : Nat
  isLoop : Bool
  /-- Beats until the next marker of the set; `none` for the last section. -/
  length : Option ℚ := none
  deriving DecidableEq

/-- A song of the set with its sections in playing order. -/
structure Song where
  name : String
  position : ℚ
  sections : List Section
  deriving DecidableEq

/-- One row of the track list. -/
structure Track where
  index : Nat
  name : String
  muted : Bool
  deriving DecidableEq

/-- State shared by the Ableton bridge and the WebSocket server. -/
structure AppState where
  songs : List Song := []
  tracks : List Track := []
  currentPosition : ℚ := 0
  isPlaying : Bool := false
  currentSongIndex : Int := -1
  currentSectionIndex : Int := -1
  tempo : ℚ := 0
  timeSignatureNumerator : Int := 4
  cueCount : Nat := 0
  cueWarning : Bool := false
  /-- Starts true so that a normal startup flashes no warning. -/
  abletonConnected : Bool := true
  queuedSongIndex : Int := -1
  queuedSectionIndex : Int := -1
  queuedLaunchBeat : Option ℚ := none
  /-- Output level per track index. -/
  trackMeters : Dict Int ℚ := ∅
  deriving DecidableEq

/-- The lightweight message body of a beat update. -/
structure PositionSnapshot where
  position : ℚ
  isPlaying : Bool
  currentSongIndex : Int
  currentSectionIndex : Int
  tempo : ℚ
  timeSignatureNumerator : Int
  abletonConnected : Bool
  deriving DecidableEq

/-- The complete state sent on connect and whenever the markers change. -/
structure FullSnapshot where
  songs : List Song
  tracks : List Track
  position : ℚ
  isPlaying : Bool
  currentSongIndex : Int
  currentSectionIndex : Int
  tempo : ℚ
  timeSignatureNumerator : Int
  cueCount : Nat
  cueWarning : Bool
  abletonConnected : Bool
  queuedSongIndex : Int
  queuedSectionIndex : Int
  queuedLaunchBeat : Option ℚ
  deriving DecidableEq

namespace AppState

/-- `position_snapshot`. -/
def positionSnapshot (state : AppState) : PositionSnapshot where
  position := state.currentPosition
  isPlaying := state.isPlaying
  currentSongIndex := state.currentSongIndex
  currentSectionIndex := state.currentSectionIndex
  tempo := state.tempo
  timeSignatureNumerator := state.timeSignatureNumerator
  abletonConnected := state.abletonConnected

/-- `full_snapshot`. -/
def fullSnapshot (state : AppState) : FullSnapshot where
  songs := state.songs
  tracks := state.tracks
  position := state.currentPosition
  isPlaying := state.isPlaying
  currentSongIndex := state.currentSongIndex
  currentSectionIndex := state.currentSectionIndex
  tempo := state.tempo
  timeSignatureNumerator := state.timeSignatureNumerator
  cueCount := state.cueCount
  cueWarning := state.cueWarning
  abletonConnected := state.abletonConnected
  queuedSongIndex := state.queuedSongIndex
  queuedSectionIndex := state.queuedSectionIndex
  queuedLaunchBeat := state.queuedLaunchBeat

end AppState
end AbletonTracks
