import AbletonTracks.Bridge.Sections
import AbletonTracks.Parser.Current
import AbletonTracks.Remote.Analysis

/-!
# Two reports of one position

Ableton reports where playback is twice: `current_song_time_changed` sends the
whole beat whenever a new one begins or playback goes back, and the listener
for `current_song_time` sends the time itself.  `_handle_beat` takes both for
the position, so a section that starts between the two is current for one of
them only.
-/

namespace AbletonTracks

open Library

namespace LiveSong

/-- `int(value)`. -/
def truncate (value : ℚ) : Int := if 0 ≤ value then ⌊value⌋ else ⌈value⌉

/-- `current_song_time_changed`: what it sends, and the time that it keeps. -/
def currentSongTimeChanged (currentSongTime lastSongTime : ℚ) :
    List (String × List OscValue) × ℚ :=
  (if currentSongTime < lastSongTime ∨
      truncate lastSongTime < truncate currentSongTime then
    [("/live/song/get/beat", [.int (truncate currentSongTime)])]
  else [], currentSongTime)

/-- What the listener for `current_song_time` sends. -/
def currentSongTimeMessage (currentSongTime : ℚ) : String × List OscValue :=
  ("/live/song/get/current_song_time", [.float currentSongTime])

end LiveSong

namespace AbletonBridge

open LiveSong

variable {cuePoints : List CuePoint} {first second : AbletonBridge}
  {time lastSongTime : ℚ}

/-- No section starts after one of two positions and up to the other. -/
def NoneStartsBetween (songs : List Song) (position other : ℚ) : Prop :=
  ∀ item ∈ Parser.flat songs,
    ¬(min position other < item.position ∧
      item.position ≤ max position other)

instance (songs : List Song) (position other : ℚ) :
    Decidable (NoneStartsBetween songs position other) :=
  inferInstanceAs (Decidable (∀ _ ∈ Parser.flat songs, _))

/-- The same sections have started at both positions. -/
theorem noneStartsBetween_iff {songs : List Song} {position other : ℚ} :
    NoneStartsBetween songs position other ↔
      ∀ item ∈ Parser.flat songs,
        item.position ≤ position ↔ item.position ≤ other := by
  refine forall₂_congr fun item _ => ?_
  rw [min_lt_iff, le_max_iff]
  grind

/-- A position report that arrives sets the indices. -/
theorem indices_datagramReceived
    (bridge : AbletonBridge)
    (now : ℚ)
    (isBeatBoundary : Bool)
    {argument : OscArgument} {position : ℚ}
    (carried : argument.float? = some (.finite position)) :
    (bridge.datagramReceived now (positionAddress isBeatBoundary)
      [argument]).1.state.indices =
        Parser.findCurrentIndices bridge.state.songs position := by
  have number := OscArgument.number?_of_float? carried
  cases isBeatBoundary with
  | false =>
      exact handleBeat_indices { bridge with lastReceived := now } false []
        number
  | true =>
      exact handleBeat_indices { bridge with lastReceived := now } true []
        number

/-- What is sent at a time that is not negative is its whole beat. -/
theorem mem_currentSongTimeChanged
    {message : String × List OscValue}
    (nonneg : 0 ≤ time)
    (sent : message ∈ (currentSongTimeChanged time lastSongTime).1) :
    message = (positionAddress true, [.int ⌊time⌋]) := by
  have whole : truncate time = ⌊time⌋ := if_pos nonneg
  unfold currentSongTimeChanged at sent
  dsimp only at sent
  split at sent
  · rw [whole] at sent
    exact List.mem_singleton.mp sent
  · cases sent

/-- Both reports of a position leave the same indices behind exactly when no
section starts between the whole beat and the time that is packed. -/
theorem indices_eq_iff_noneStartsBetween
    {beat : String × List OscValue} {beatArgs timeArgs : List OscArgument}
    (firstSongs : first.state.songs = Parser.parseMarkers cuePoints)
    (secondSongs : second.state.songs = Parser.parseMarkers cuePoints)
    (nonneg : 0 ≤ time)
    (sent : beat ∈ (currentSongTimeChanged time lastSongTime).1)
    (beatArrived : List.Forall₂ OscValue.Arrives beat.2 beatArgs)
    (timeArrived : List.Forall₂ OscValue.Arrives
      (currentSongTimeMessage time).2 timeArgs)
    (now later : ℚ) :
    (first.datagramReceived now beat.1 beatArgs).1.state.indices =
        (second.datagramReceived later (currentSongTimeMessage time).1
          timeArgs).1.state.indices ↔
      NoneStartsBetween (Parser.parseMarkers cuePoints) ⌊time⌋
        (toSingle time) := by
  obtain rfl := mem_currentSongTimeChanged nonneg sent
  obtain ⟨whole, _, ⟨_, wholeBeat, _⟩, others, rfl⟩ :=
    List.forall₂_cons_left_iff.mp beatArrived
  obtain rfl := List.forall₂_nil_left_iff.mp others
  obtain ⟨own, _, ⟨_, packed⟩, others, rfl⟩ :=
    List.forall₂_cons_left_iff.mp timeArrived
  obtain rfl := List.forall₂_nil_left_iff.mp others
  have beatIndices := first.indices_datagramReceived now true wholeBeat
  have timeIndices := second.indices_datagramReceived later false packed
  rw [firstSongs] at beatIndices
  rw [secondSongs] at timeIndices
  rw [noneStartsBetween_iff,
    ← Parser.findCurrentIndices_eq_findCurrentIndices_iff, ← beatIndices,
    ← timeIndices]
  rfl

/-- A song with one section. -/
private def oneSection (position : ℚ) : List CuePoint :=
  [⟨"== Amazing Grace ==", 0⟩, ⟨"Verse", position⟩]

private def withSection (position : ℚ) : AbletonBridge :=
  { state := { songs := Parser.parseMarkers (oneSection position) } }

/-- Three quarters of a beat into a section that starts on a whole beat. -/
theorem indices_eq_iff_noneStartsBetween_wholeBeat :
    ((withSection 8).datagramReceived 0 "/live/song/get/beat"
        [(OscValue.int 8).packed.argument]).1.state.indices =
      ((withSection 8).datagramReceived 0 "/live/song/get/current_song_time"
        [(OscValue.float (35 / 4)).packed.argument]).1.state.indices := by
  have sent : ("/live/song/get/beat", [OscValue.int 8]) ∈
      (currentSongTimeChanged (35 / 4) (31 / 4)).1 := by
    decide +kernel
  have beatArrived : List.Forall₂ OscValue.Arrives [.int 8]
      [(OscValue.int 8).packed.argument] :=
    .cons ⟨by decide, OscValue.carries_argument _⟩ .nil
  have timeArrived : List.Forall₂ OscValue.Arrives
      (currentSongTimeMessage (35 / 4)).2
      [(OscValue.float (35 / 4)).packed.argument] :=
    .cons ⟨by decide +kernel, OscValue.carries_argument _⟩ .nil
  have none : NoneStartsBetween (Parser.parseMarkers (oneSection 8))
      (⌊(35 / 4 : ℚ)⌋ : ℚ) (toSingle (35 / 4)) := by
    decide +kernel
  exact (indices_eq_iff_noneStartsBetween rfl rfl (by norm_num) sent
    beatArrived timeArrived 0 0).mpr none

/-- A quarter of a beat into a section that starts between two beats, playback
goes back to it: the whole beat still lies before the section. -/
theorem not_indices_eq_of_fractionalMarker :
    (currentSongTimeChanged (35 / 4) 12).1 =
        [("/live/song/get/beat", [.int 8])] ∧
      ((withSection (17 / 2)).datagramReceived 0 "/live/song/get/beat"
        [(OscValue.int 8).packed.argument]).1.state.indices = (0, 0) ∧
      ((withSection (17 / 2)).datagramReceived 0
        (currentSongTimeMessage (35 / 4)).1
        [(OscValue.float (35 / 4)).packed.argument]).1.state.indices =
          (0, 1) := by
  decide +kernel

end AbletonBridge
end AbletonTracks
