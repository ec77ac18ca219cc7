import AbletonTracks.Server.Defs

/-!
# The song in Ableton

The handlers of the remote script, which run inside Ableton and answer the
bridge: reading the cue points, jumping to one of them, and replacing all of
them at once.
-/

namespace AbletonTracks

open Library

/-! ## Messages -/

/-- An argument of an OSC message. -/
inductive OscValue
  | string (text : String)
  | int (value : Int)
  | float (value : ℚ)
  deriving DecidableEq

/-- The argument arrives as it is: the conversions see its own text and its
own number. -/
def OscValue.Carries : OscValue → OscArgument → Prop
  | .string text, argument =>
      argument.text = text ∧ argument.float? = Text.float? text
  | .int value, argument =>
      argument.float? = some (.finite value) ∧ argument.int? = some value
  | .float value, argument => argument.float? = some (.finite value)

theorem OscArgument.number?_of_float?
    {argument : OscArgument} {value : ℚ}
    (carried : argument.float? = some (.finite value)) :
    argument.number? = some value := by
  rw [number?, carried]
  rfl

/-! ## The song -/

/-- A cue point of the song. -/
structure LiveCue where
  name : String
  time : ℚ
  deriving DecidableEq

/-- The song, as far as the handlers read and write it. -/
structure LiveSong where
  tempo : ℚ := 120
  currentSongTime : ℚ := 0
  cuePoints : List LiveCue := []
  deriving DecidableEq

namespace LiveSong

variable (song : LiveSong)

/-- `set_or_delete_cue`: delete the cue at the current time, or create one
there. -/
def setOrDeleteCue : LiveSong :=
  { song with
    cuePoints :=
      if ∃ cue ∈ song.cuePoints, cue.time = song.currentSongTime then
        song.cuePoints.filter fun cue => cue.time ≠ song.currentSongTime
      else song.cuePoints ++ [⟨"", song.currentSongTime⟩] }

/-- Move the playhead to a beat, then `set_or_delete_cue`. -/
def toggleCueAt (beat : ℚ) : LiveSong :=
  { song with currentSongTime := beat }.setOrDeleteCue

/-- Name the first cue that is less than half a beat away. -/
def nameNearest (name : String) (beat : ℚ) : List LiveCue → List LiveCue
  | [] => []
  | cue :: rest =>
      if |toDouble (cue.time - beat)| < 1 / 2 then
        { cue with name := name } :: rest
      else cue :: nameNearest name beat rest

/-- Create a cue and immediately name it. -/
def createCue (pair : String × ℚ) : LiveSong :=
  let toggled := song.toggleCueAt pair.2
  { toggled with
    cuePoints := nameNearest pair.1 pair.2 toggled.cuePoints }

/-! ## Cue points -/

/-- `song_get_cue_points`. -/
def songGetCuePoints : List OscValue :=
  song.cuePoints.flatMap fun cue => [.string cue.name, .float cue.time]

/-- `song_jump_to_cue_point`: the cues it jumps to, or none when it raises. -/
def songJumpToCuePoint : List OscValue → Option (List LiveCue)
  | [] => none
  | .string name :: _ =>
      some (song.cuePoints.filter fun cue => cue.name = name)
  | .int index :: _ =>
      (System.itemAt? song.cuePoints index).map fun cue => [cue]
  | .float _ :: _ => some []

/-! ## Replacing all cues -/

end LiveSong

/-- What `song_replace_all_cues` reads from its parameters: the tempo, the
beat where the clip starts, and the cues with their times in seconds. -/
structure CueData where
  bpm : Floating
  clipStartBeat : Floating
  cues : List (String × Floating)
  deriving DecidableEq

namespace CueData

/-- The names and times of the loop; a pair whose time is no number is left
out. -/
def readCues : List OscArgument → List (String × Floating)
  | name :: time :: rest =>
      match time.float? with
      | none => readCues rest
      | some seconds => (name.text, seconds) :: readCues rest
  | _ => []

/-- The parsing of `song_replace_all_cues`; `none` where it gives up on the
first two parameters. -/
def read? : List OscArgument → Option CueData
  | bpm :: clipStartBeat :: rest => do
      let bpm ← bpm.float?
      let clipStartBeat ← clipStartBeat.float?
      return ⟨bpm, clipStartBeat, readCues rest⟩
  | _ => none

/-- The beat nearest to a time, counted from where the clip starts; `round` may
raise. -/
def beat
    (data : CueData)
    (seconds : Floating) : Except RoundError Floating := do
  let nearest ← ((seconds.mul data.bpm).div 60).round
  return (Floating.finite nearest).add data.clipStartBeat

/-- The same for finite numbers that do not overflow. -/
def snap (bpm clipStartBeat seconds : ℚ) : ℚ :=
  toDouble (roundHalfEven (toDouble (toDouble (seconds * bpm) / 60)) +
    clipStartBeat)

/-- The loop that snaps the times.  It leaves out a pair where `round` raises
`ValueError`; an `OverflowError` is not caught. -/
def pairsOf (data : CueData) :
    List (String × Floating) → Option (List (String × Floating))
  | [] => some []
  | cue :: rest =>
      match data.beat cue.2 with
      | .ok beat => (data.pairsOf rest).map fun pairs => (cue.1, beat) :: pairs
      | .error .valueError => data.pairsOf rest
      | .error .overflowError => none

/-- The names with their beats. -/
def pairs? (data : CueData) : Option (List (String × Floating)) :=
  data.pairsOf data.cues

end CueData

namespace LiveSong

variable (song : LiveSong)

/-- What `song_replace_all_cues` does with pairs that Live accepts: set the
tempo, delete every cue, create the new ones in order, and restore the
playhead. -/
def replaceCues (bpm : ℚ) (pairs : List (String × ℚ)) : LiveSong × Nat :=
  let cleared := song.cuePoints.foldl
    (fun song cue => song.toggleCueAt cue.time) { song with tempo := bpm }
  ({ pairs.foldl createCue cleared with
      currentSongTime := song.currentSongTime },
    pairs.length)

/-- The pairs that Live accepts.  It has no tempo and no position that is not
finite; where setting one raises, the handler goes on. -/
def accepted (pairs : List (String × Floating)) : List (String × ℚ) :=
  pairs.filterMap fun pair => pair.2.number?.map fun beat => (pair.1, beat)

/-- `song_replace_all_cues`: the song, and what is returned unless an exception
is not caught. -/
def songReplaceAllCues (params : List OscArgument) : LiveSong × Option Nat :=
  match CueData.read? params with
  | none => (song, some 0)
  | some data =>
      match data.pairs? with
      | none => (song, none)
      | some [] => (song, some 0)
      | some pairs =>
          Prod.map id some (song.replaceCues
            (data.bpm.number?.getD song.tempo) (accepted pairs))

/-- The handler of an address that takes cue data; the older address is kept
for compatibility. -/
def handler? (address : String) :
    Option (LiveSong → List OscArgument → LiveSong × Option Nat) :=
  match address with
  | "/live/song/replace_all_cues" => some songReplaceAllCues
  | "/live/song/create_cues_from_data" => some songReplaceAllCues
  | _ => none

end LiveSong
end AbletonTracks
