import AbletonTracks.Library.Runs
import AbletonTracks.Library.Stutter
import AbletonTracks.Remote.Beats
import Mathlib.Data.NNRat.Defs

/-!
# The beats that are told

Live calls `current_song_time_changed` many times a beat, and it sends the
whole beat only when a new one begins or playback goes back.  What is left
out this way repeats the beat that was told last, and `_handle_beat` does
nothing with a beat that it is told twice in a row: the bridge ends where it
would if every call sent its beat.
-/

namespace AbletonTracks

open Library

/-! ## A beat that is told twice -/

namespace AbletonBridge

variable {bridge : AbletonBridge} {position : ℚ}

/-- Handling a position, up to what is sent. -/
theorem handleBeat_fst
    (bridge : AbletonBridge)
    (isBeatBoundary : Bool)
    {argument : OscArgument}
    (others : List OscArgument)
    (carried : argument.number? = some position) :
    (bridge.handleBeat isBeatBoundary (argument :: others)).1 =
      { (bridge.storePosition position).fireRetarget.1 with
        state := clearLandedJump
          (updateIndices (bridge.storePosition position).state)
        lastSection := (clearLandedJump
          (updateIndices (bridge.storePosition position).state)).indices } := by
  simp only [handleBeat, carried, fireRetarget_state]
  rfl

theorem clearLandedJump_updateIndices (state : AppState) :
    clearLandedJump (updateIndices (clearLandedJump (updateIndices state))) =
      clearLandedJump (updateIndices state) := by
  have same : updateIndices (clearLandedJump (updateIndices state)) =
      clearLandedJump (updateIndices state) := by
    unfold clearLandedJump
    split <;> rfl
  rw [same]
  unfold clearLandedJump
  split
  · exact if_neg fun waiting => waiting.1 rfl
  · rfl

/-- A bridge that has handled a position. -/
structure Settled (bridge : AbletonBridge) (position : ℚ) : Prop where
  currentPosition : bridge.state.currentPosition = position
  pendingRetarget : ∀ retarget, bridge.pendingRetarget = some retarget →
    position < retarget.launchBeat
  state : clearLandedJump (updateIndices bridge.state) = bridge.state
  lastSection : bridge.lastSection = bridge.state.indices

/-- Handling a position settles the bridge. -/
theorem settled_handleBeat
    (bridge : AbletonBridge)
    (isBeatBoundary : Bool)
    {argument : OscArgument}
    (others : List OscArgument)
    (carried : argument.number? = some position) :
    (bridge.handleBeat isBeatBoundary (argument :: others)).1.Settled
      position := by
  rw [handleBeat_fst bridge isBeatBoundary others carried]
  refine ⟨?_, ?_, clearLandedJump_updateIndices _, rfl⟩
  · unfold clearLandedJump
    split <;> rfl
  · intro retarget pending
    change (bridge.storePosition position).fireRetarget.1.pendingRetarget =
      some retarget at pending
    unfold fireRetarget at pending
    split at pending
    · rename_i idle
      rw [idle] at pending
      cases pending
    · rename_i waiting stored
      split at pending
      · cases pending
      · rename_i early
        rw [stored] at pending
        obtain rfl := Option.some.inj pending
        exact not_le.mp early

/-- A settled bridge does nothing with its position. -/
theorem Settled.handleBeat
    (settled : bridge.Settled position)
    (isBeatBoundary : Bool)
    {argument : OscArgument}
    (others : List OscArgument)
    (carried : argument.number? = some position) :
    (bridge.handleBeat isBeatBoundary (argument :: others)).1 = bridge := by
  have stored : bridge.storePosition position = bridge := by
    rw [storePosition, settled.currentPosition, if_neg (by linarith),
      ← settled.currentPosition]
  have quiet : bridge.fireRetarget.1 = bridge := by
    unfold fireRetarget
    split
    · rfl
    · rename_i retarget pending
      have early := settled.pendingRetarget retarget pending
      rw [settled.currentPosition, if_neg (not_le.mpr early)]
  rw [handleBeat_fst bridge isBeatBoundary others carried, stored, quiet,
    settled.state, ← settled.lastSection]

/-- The bridge after `_dispatch` of a message. -/
def receives
    (bridge : AbletonBridge)
    (message : String × List OscValue) : AbletonBridge :=
  (bridge.dispatch message.1 (message.2.map OscValue.argument)).1

end AbletonBridge

/-- The message for a beat. -/
def LiveSong.beatMessage (beat : Int) : String × List OscValue :=
  ("/live/song/get/beat", [.int beat])

/-- A beat that arrives a second time in a row changes nothing. -/
theorem AbletonBridge.receives_beatMessage
    (bridge : AbletonBridge)
    (beat : Int) :
    (bridge.receives (LiveSong.beatMessage beat)).receives
        (LiveSong.beatMessage beat) =
      bridge.receives (LiveSong.beatMessage beat) := by
  have carried : (OscValue.int beat).argument.number? = some (beat : ℚ) := rfl
  exact (bridge.settled_handleBeat true [] carried).handleBeat true [] carried

/-! ## What the listener tells -/

open LiveSong

/-- The listener for `/live/song/get/beat`, with what it told and the times
that it was called with. -/
structure BeatFeed where
  currentSongTime : ℚ≥0 := 0
  lastSongTime : ℚ := -1
  connected : Bool := false
  told : List (String × List OscValue) := []
  heard : List ℚ≥0 := []

/-- What can happen to the listener. -/
inductive BeatEvent where
  /-- Playback comes to another time, or back to one. -/
  | moves (time : ℚ≥0)
  | startBeatListener
  | stopBeatListener
  /-- `clear_api`, and a new handler. -/
  | reload
  deriving DecidableEq

namespace BeatFeed

/-- Live calls the listener at a time. -/
def hears (s : BeatFeed) (time : ℚ≥0) : BeatFeed :=
  let called := currentSongTimeChanged time s.lastSongTime
  { s with
    lastSongTime := called.2
    told := s.told ++ called.1
    heard := s.heard ++ [time] }

/-- What an event makes of the listener. -/
def handle (s : BeatFeed) : BeatEvent → BeatFeed
  | .moves time =>
      let moved := { s with currentSongTime := time }
      if s.connected then moved.hears time else moved
  | .startBeatListener => { s with connected := true }
  | .stopBeatListener => { s with connected := false }
  | .reload => { s with connected := false, lastSongTime := -1 }

/-- Every event can happen in every state. -/
def exec (s : BeatFeed) (event : BeatEvent) : Option BeatFeed :=
  some (s.handle event)

variable {s after finish : BeatFeed} {steps : List (Step BeatFeed BeatEvent)}

/-- A message for every time. -/
def everyBeat (s : BeatFeed) : List (String × List OscValue) :=
  s.heard.map fun time : ℚ≥0 => beatMessage (truncate time)

theorem everyBeat_hears (s : BeatFeed) (time : ℚ≥0) :
    (s.hears time).everyBeat = s.everyBeat ++ [beatMessage (truncate time)] :=
  List.map_append

theorem truncate_mono {early late : ℚ} (ordered : early ≤ late) :
    truncate early ≤ truncate late := by
  unfold truncate
  split
  · rename_i nonneg
    rw [if_pos (nonneg.trans ordered)]
    exact Int.floor_le_floor ordered
  · rename_i negative
    split
    · rename_i nonneg
      exact (Int.ceil_le.mpr (by push_cast; linarith)).trans
        (Int.floor_nonneg.mpr nonneg)
    · exact Int.ceil_le_ceil ordered

/-- A time is told, or it lies in the beat of the time before. -/
theorem currentSongTimeChanged_cases (time lastSongTime : ℚ) :
    ((time < lastSongTime ∨ truncate lastSongTime < truncate time) ∧
        (currentSongTimeChanged time lastSongTime).1 =
          [beatMessage (truncate time)]) ∨
      truncate lastSongTime = truncate time ∧
        (currentSongTimeChanged time lastSongTime).1 = [] := by
  unfold currentSongTimeChanged
  dsimp only
  split
  · rename_i begins
    exact Or.inl ⟨begins, rfl⟩
  · rename_i quiet
    rw [not_or, not_lt, not_lt] at quiet
    exact Or.inr ⟨le_antisymm (truncate_mono quiet.1) quiet.2, rfl⟩

/-- The listener has told every time up to repetitions, and keeps the last one
or none that Live can have. -/
structure Follows (s : BeatFeed) : Prop where
  last : s.lastSongTime = -1 ∨
    ∃ time, s.heard.getLast? = some time ∧ s.lastSongTime = time
  runs : distinctRuns s.told = distinctRuns s.everyBeat
  beats : ∀ message ∈ s.told, ∃ beat, message = beatMessage beat

/-- What a call tells repeats no beat, or the last one. -/
theorem Follows.hears
    (follows : s.Follows)
    (time : ℚ≥0) :
    (s.hears time).Follows := by
  have last : (s.hears time).heard.getLast? = some time :=
    List.getLast?_concat
  obtain ⟨_, sent⟩ | ⟨same, quiet⟩ :=
    currentSongTimeChanged_cases time s.lastSongTime
  · have told : (s.hears time).told =
        s.told ++ [beatMessage (truncate time)] :=
      congrArg (s.told ++ ·) sent
    refine ⟨Or.inr ⟨time, last, rfl⟩, ?_, ?_⟩
    · rw [told, everyBeat_hears]
      exact distinctRuns_append_congr follows.runs _
    · rw [told]
      intro message member
      rcases List.mem_append.mp member with earlier | fresh
      · exact follows.beats message earlier
      · exact ⟨_, List.mem_singleton.mp fresh⟩
  · have told : (s.hears time).told = s.told :=
      (congrArg (s.told ++ ·) quiet).trans (List.append_nil _)
    refine ⟨Or.inr ⟨time, last, rfl⟩, ?_, told ▸ follows.beats⟩
    rw [told, everyBeat_hears, follows.runs]
    refine (distinctRuns_append_of_getLast? ?_).symm
    rcases follows.last with fresh | ⟨heard, before, kept⟩
    · -- No time of Live lies in the beat that a new handler starts with.
      have nonneg : (0 : ℚ) ≤ time := time.cast_nonneg
      have below : truncate (-1) = -1 := by decide +kernel
      rw [fresh, below, truncate, if_pos nonneg] at same
      have := Int.floor_nonneg.mpr nonneg
      omega
    · rw [everyBeat, List.getLast?_map, before, ← same, kept]
      rfl

/-- Every event keeps the listener so. -/
theorem Follows.handle
    (follows : s.Follows)
    (event : BeatEvent) :
    (s.handle event).Follows := by
  cases event with
  | startBeatListener | stopBeatListener => exact { follows with }
  | reload => exact { follows with last := Or.inl rfl }
  | moves time =>
      have moved : { s with currentSongTime := time }.Follows :=
        { follows with }
      rw [BeatFeed.handle]
      split
      · exact moved.hears time
      · exact moved

theorem follows_of_run
    (run : Run exec {} steps finish) :
    finish.Follows := by
  refine run.invariant Follows ⟨Or.inl rfl, rfl, by simp⟩ ?_
  intro current event after follows taken
  obtain rfl := Option.some.inj taken
  exact follows.handle event

/-- One handler has heard all the times, and told no beat twice in a row while
they went forward. -/
structure Ascends (s : BeatFeed) : Prop where
  last : s.heard = [] ∨
    ∃ time, s.heard.getLast? = some time ∧ s.lastSongTime = time
  once : s.heard.IsChain (· ≤ ·) → s.told.IsChain (· ≠ ·)

theorem Ascends.hears
    (ascends : s.Ascends)
    (follows : s.Follows)
    (time : ℚ≥0) :
    (s.hears time).Ascends := by
  have heard : (s.hears time).heard = s.heard ++ [time] := rfl
  refine ⟨Or.inr ⟨time, heard ▸ List.getLast?_concat, rfl⟩, ?_⟩
  intro forward
  rw [heard, List.isChain_append] at forward
  obtain ⟨earlier, _, next⟩ := forward
  have told : (s.hears time).told =
      s.told ++ (currentSongTimeChanged time s.lastSongTime).1 := rfl
  rw [told]
  obtain ⟨begins, sent⟩ | ⟨_, quiet⟩ :=
    currentSongTimeChanged_cases time s.lastSongTime
  · rw [sent, List.isChain_append]
    refine ⟨ascends.once earlier, List.isChain_singleton _, ?_⟩
    intro lastTold toldLast message first same
    obtain rfl := Option.some.inj first
    have agree := congrArg List.getLast? follows.runs
    rw [getLast?_distinctRuns, getLast?_distinctRuns, everyBeat,
      List.getLast?_map, toldLast] at agree
    rcases ascends.last with fresh | ⟨before, last, kept⟩
    · rw [fresh] at agree
      cases agree
    · rw [last, same] at agree
      have beats : truncate time = truncate before := by
        simpa [beatMessage] using agree
      rcases begins with back | begins
      · rw [kept] at back
        exact absurd (next before last time rfl)
          (not_le.mpr (by exact_mod_cast back))
      · rw [kept, beats] at begins
        exact lt_irrefl _ begins
  · rw [quiet, List.append_nil]
    exact ascends.once earlier

theorem Ascends.handle
    (ascends : s.Ascends)
    (follows : s.Follows)
    {event : BeatEvent}
    (kept : event ≠ .reload) :
    (s.handle event).Ascends := by
  cases event with
  | startBeatListener | stopBeatListener => exact { ascends with }
  | reload => exact absurd rfl kept
  | moves time =>
      have moved : { s with currentSongTime := time }.Ascends :=
        { ascends with }
      rw [BeatFeed.handle]
      split
      · exact moved.hears { follows with } time
      · exact moved

/-- In every run the bridge ends where it would if every call of the listener
told its beat.  While playback goes forward under one handler, every beat is
told once. -/
theorem told_of_run
    (run : Run exec {} steps finish) :
    (∀ bridge : AbletonBridge,
      finish.told.foldl AbletonBridge.receives bridge =
        finish.everyBeat.foldl AbletonBridge.receives bridge) ∧
    ((∀ step ∈ steps, step.label ≠ .reload) →
      finish.heard.IsChain (· ≤ ·) →
      finish.told = distinctRuns finish.everyBeat) := by
  have follows := follows_of_run run
  refine ⟨fun bridge => foldl_eq_of_distinctRuns ?_ follows.runs bridge, ?_⟩
  · intro message member bridge
    have beat : ∃ beat, message = beatMessage beat := by
      rcases List.mem_append.mp member with told | every
      · exact follows.beats message told
      · obtain ⟨time, _, rfl⟩ := List.mem_map.mp every
        exact ⟨_, rfl⟩
    obtain ⟨beat, rfl⟩ := beat
    exact bridge.receives_beatMessage beat
  · intro kept forward
    have ascends : finish.Ascends := by
      refine run.historyInvariant
        (fun past state =>
          (∀ step ∈ past, step.label ≠ .reload) → state.Ascends)
        (fun _ => ⟨Or.inl rfl, fun _ => List.isChain_nil⟩) ?_ kept
      intro past current event after earlier ascends taken kept
      obtain rfl := Option.some.inj taken
      rw [List.forall_mem_append, List.forall_mem_singleton] at kept
      exact (ascends kept.1).handle (follows_of_run earlier) kept.2
    rw [← follows.runs]
    exact (List.destutter_of_isChain _ _ (ascends.once forward)).symm

/-- Playback goes on within a beat and into the next one. -/
theorem told_of_run_nextBeat :
    ∃ steps finish, Run exec ({} : BeatFeed) steps finish ∧
      finish.heard.length = 3 ∧
      finish.told = distinctRuns finish.everyBeat ∧
      finish.told = [beatMessage 0, beatMessage 1] ∧
      ∀ bridge : AbletonBridge,
        finish.told.foldl AbletonBridge.receives bridge =
          finish.everyBeat.foldl AbletonBridge.receives bridge := by
  have runs : (replay exec ({} : BeatFeed)
      [.moves 0, .startBeatListener, .moves (1 / 2), .moves (3 / 4),
        .moves (5 / 4)]).map (fun run => decide
          ((∀ step ∈ run.1, step.label ≠ .reload) ∧
            run.2.heard.IsChain (· ≤ ·) ∧
            run.2.heard.length = 3 ∧
            run.2.told = [beatMessage 0, beatMessage 1])) = some true := by
    decide +kernel
  obtain ⟨⟨steps, finish⟩, replayed, checked⟩ :=
    Option.map_eq_some_iff.mp runs
  have run := run_of_replay replayed
  obtain ⟨kept, forward, heard, told⟩ := of_decide_eq_true checked
  exact ⟨steps, finish, run, heard, (told_of_run run).2 kept forward, told,
    (told_of_run run).1⟩

end BeatFeed
end AbletonTracks
