import AbletonTracks.Remote.Analysis

/-!
# The tracks in Ableton

The handlers of the remote script that read the tracks of the set: their names,
the names of the clips in a track's slots, and the cues that are generated from
the arrangement clips of a track.
-/

namespace AbletonTracks

open Library

/-- A clip in the arrangement. -/
structure ArrangementClip where
  name : String
  startTime : ℚ
  deriving DecidableEq

/-- A track of the set. -/
structure LiveTrack where
  name : String
  /-- The names of the clips in its slots; `none` for an empty slot. -/
  clipSlots : List (Option String) := []
  /-- `none` where Live does not offer them. -/
  arrangementClips : Option (List ArrangementClip) := some []
  deriving DecidableEq

/-! ## Replies -/

/-- How the name in a clip slot arrives. -/
def slotArgument : Option String → OscArgument
  | none => ⟨"None", none, none, false, true⟩
  | some name => (OscValue.string name).argument

/-! ## Generating cues -/

namespace LiveSong

variable (song : LiveSong)

/-- The cues of `cue_map`, each known by its time: of several with one rounded
time, the last. -/
def cueMap (cues : List LiveCue) : Dict ℚ ℚ :=
  cues.foldl (fun map cue => map.insert (roundTo 3 cue.time) cue.time) ∅

/-- Name the cue at a time. -/
def nameCue (name : String) (time : ℚ) : LiveSong :=
  { song with
    cuePoints := song.cuePoints.map fun cue =>
      if cue.time = time then { cue with name := name } else cue }

/-- Body of the loop over the clips: rename the cue at the clip's start, or
toggle one there and name it. -/
def generateCue
    (state : LiveSong × Dict ℚ ℚ)
    (clip : ArrangementClip) : LiveSong × Dict ℚ ℚ :=
  let key := roundTo 3 clip.startTime
  match state.2.get? key with
  | some time => (state.1.nameCue clip.name time, state.2)
  | none =>
      let toggled := state.1.toggleCueAt clip.startTime
      let existing := cueMap toggled.cuePoints
      match existing.get? key with
      | some time => (toggled.nameCue clip.name time, existing)
      | none => (toggled, existing)

/-- The clips of the first track with the given name, if Live offers them. -/
def clipsOn? (tracks : List LiveTrack) (params : List OscArgument) :
    Option (List ArrangementClip) :=
  let trackName := (params.head?.map OscArgument.text).getD "Cues"
  (tracks.find? fun track => track.name = trackName).bind
    LiveTrack.arrangementClips

/-- `song_generate_cues_from_track`. -/
def songGenerateCuesFromTrack
    (tracks : List LiveTrack)
    (params : List OscArgument) : LiveSong × Nat × Nat :=
  match clipsOn? tracks params with
  | none | some [] => (song, 0, 0)
  | some clips =>
      let generated :=
        (clips.foldl generateCue (song, cueMap song.cuePoints)).1
      ({ generated with currentSongTime := song.currentSongTime },
        clips.length, clips.length)

end LiveSong
end AbletonTracks
