import AbletonTracks.Bridge.Defs
import AbletonTracks.Library.Runs

/-!
# The song list and the cue cache

`_handle_cue_points` skips a reply that equals the cached one.  A cache that
was cleared looks like a cached empty reply, so an empty reply that follows a
clear is skipped although the songs of the last set are still there.  Every
other reply leaves exactly its own songs behind.
-/

namespace AbletonTracks

open Library

namespace AbletonBridge

variable {bridge after : AbletonBridge} {args : List OscArgument}

/-! ## The machine -/

/-- The address of a reply with the cue points. -/
def cuePointsAddress : String := "/live/song/get/cue_points"

/-- What can happen to the bridge: Ableton's messages, the ticks of its own
tasks, and the ends of the three operations that clear the cue cache. -/
inductive Event
  | datagram (now : ℚ) (address : String) (args : List OscArgument)
  | cuesGenerated
  | guideAnalyzed
  | analysisApplied
  | watchdogTick (now : ℚ)
  | meterTick
  deriving DecidableEq

/-- How the bridge handles an event. -/
def handle (bridge : AbletonBridge) : Event → AbletonBridge × List Effect
  | .datagram now address args => bridge.datagramReceived now address args
  | .cuesGenerated => bridge.generateCuesFromTrackDone
  | .guideAnalyzed => bridge.analyzeGuideTrackDone
  | .analysisApplied => bridge.applyAnalysisDone
  | .watchdogTick now => bridge.watchdog now
  | .meterTick => bridge.pollTrackMeters

/-- The machine of the bridge; every event can happen at any time. -/
def exec (bridge : AbletonBridge) (event : Event) : Option AbletonBridge :=
  some (bridge.handle event).1

/-! ## The cached reply -/

/-- The songs are those of the last reply that was not skipped; the cache
holds that reply or has been cleared. -/
def CacheFits (bridge : AbletonBridge) : Prop :=
  ∃ last, bridge.state.songs = Parser.parseMarkers last ∧
    bridge.state.cueCount = last.length ∧
    (bridge.lastRawCues = rawKey last ∨ bridge.lastRawCues = [])

/-- The state shows exactly the given cue points. -/
def Follows (bridge : AbletonBridge) (cues : List CuePoint) : Prop :=
  bridge.state.songs = Parser.parseMarkers cues ∧
    bridge.state.cueCount = cues.length

instance (bridge : AbletonBridge) (cues : List CuePoint) :
    Decidable (bridge.Follows cues) :=
  inferInstanceAs (Decidable (_ ∧ _))

/-- An empty reply arrives while the cache is empty but the set is not. -/
def MissesEmptyReply (bridge : AbletonBridge) (args : List OscArgument) :
    Prop :=
  decodeCues args = [] ∧ bridge.lastRawCues = [] ∧ bridge.state.cueCount ≠ 0

instance (bridge : AbletonBridge) (args : List OscArgument) :
    Decidable (bridge.MissesEmptyReply args) :=
  inferInstanceAs (Decidable (_ ∧ _ ∧ _))

/-- The cached form of a reply determines the reply. -/
theorem rawKey_injective : Function.Injective rawKey := by
  refine List.map_injective_iff.mpr ?_
  rintro ⟨name, position⟩ ⟨otherName, otherPosition⟩ same
  obtain ⟨rfl, rfl⟩ := Prod.mk.inj same
  rfl

theorem rawKey_eq_nil {raw : List CuePoint} : rawKey raw = [] ↔ raw = [] :=
  List.map_eq_nil_iff

/-! ## One step -/

/-- A reply that is not the cached one is parsed. -/
theorem handleCuePoints_of_ne
    (changed : rawKey (decodeCues args) ≠ bridge.lastRawCues) :
    (bridge.handleCuePoints args).1.Follows (decodeCues args) ∧
      (bridge.handleCuePoints args).1.lastRawCues =
        rawKey (decodeCues args) := by
  simp only [handleCuePoints, if_neg changed]
  exact ⟨⟨rfl, rfl⟩, trivial⟩

/-- The cached reply changes nothing. -/
theorem handleCuePoints_of_eq
    (unchanged : rawKey (decodeCues args) = bridge.lastRawCues) :
    (bridge.handleCuePoints args).1 = bridge := by
  simp only [handleCuePoints, if_pos unchanged]

/-- A reply leaves the songs alone, or the songs are its own. -/
theorem handleCuePoints_songs
    (bridge : AbletonBridge)
    (args : List OscArgument) :
    (bridge.handleCuePoints args).1.state.songs = bridge.state.songs ∨
      (bridge.handleCuePoints args).1.state.songs =
        Parser.parseMarkers (decodeCues args) := by
  by_cases unchanged : rawKey (decodeCues args) = bridge.lastRawCues
  · rw [handleCuePoints_of_eq unchanged]
    exact Or.inl rfl
  · exact Or.inr (handleCuePoints_of_ne unchanged).1.1

/-- After a reply the state follows it, unless it is the empty reply that a
cleared cache hides. -/
theorem handleCuePoints_follows_iff
    (fits : bridge.CacheFits) :
    (bridge.handleCuePoints args).1.Follows (decodeCues args) ↔
      ¬bridge.MissesEmptyReply args := by
  by_cases unchanged : rawKey (decodeCues args) = bridge.lastRawCues
  · rw [handleCuePoints_of_eq unchanged]
    obtain ⟨last, songs, count, cached | cleared⟩ := fits
    · -- The songs are those of the cached reply.
      have same : decodeCues args = last :=
        rawKey_injective (unchanged.trans cached)
      refine iff_of_true ⟨same ▸ songs, same ▸ count⟩ ?_
      rintro ⟨empty, _, nonempty⟩
      rw [count, ← same, empty] at nonempty
      exact nonempty rfl
    · have empty : decodeCues args = [] :=
        rawKey_eq_nil.mp (unchanged.trans cleared)
      constructor
      · rintro ⟨_, follows⟩ ⟨_, _, nonempty⟩
        rw [follows, empty] at nonempty
        exact nonempty rfl
      · intro shown
        have none : bridge.state.cueCount = 0 := by
          by_contra nonempty
          exact shown ⟨empty, cleared, nonempty⟩
        rw [count, List.length_eq_zero_iff] at none
        rw [Follows, songs, count, none, empty]
        exact ⟨rfl, rfl⟩
  · refine iff_of_true (handleCuePoints_of_ne unchanged).1 ?_
    rintro ⟨empty, cleared, _⟩
    exact unchanged ((rawKey_eq_nil.mpr empty).trans cleared.symm)

theorem CacheFits.handleCuePoints
    (fits : bridge.CacheFits)
    (args : List OscArgument) :
    (bridge.handleCuePoints args).1.CacheFits := by
  by_cases unchanged : rawKey (decodeCues args) = bridge.lastRawCues
  · rw [handleCuePoints_of_eq unchanged]
    exact fits
  · obtain ⟨follows, cached⟩ := handleCuePoints_of_ne unchanged
    exact ⟨_, follows.1, follows.2, Or.inl cached⟩

/-- Only the songs, their count and the cache matter; the cache may be
cleared. -/
theorem CacheFits.congr
    (fits : bridge.CacheFits)
    (songs : after.state.songs = bridge.state.songs)
    (count : after.state.cueCount = bridge.state.cueCount)
    (cache : after.lastRawCues = bridge.lastRawCues ∨
      after.lastRawCues = []) :
    after.CacheFits := by
  obtain ⟨last, lastSongs, lastCount, cached⟩ := fits
  refine ⟨last, songs.trans lastSongs, count.trans lastCount, ?_⟩
  rcases cache with kept | cleared
  · rwa [kept]
  · exact Or.inr cleared

@[simp] theorem clearLandedJump_songs (state : AppState) :
    (clearLandedJump state).songs = state.songs := by
  unfold clearLandedJump
  split <;> rfl

@[simp] theorem clearLandedJump_cueCount (state : AppState) :
    (clearLandedJump state).cueCount = state.cueCount := by
  unfold clearLandedJump
  split <;> rfl

/-- At most the retarget is taken away. -/
theorem fireRetarget_fst (bridge : AbletonBridge) :
    ∃ pending,
      bridge.fireRetarget.1 = { bridge with pendingRetarget := pending } := by
  unfold fireRetarget
  split
  · exact ⟨bridge.pendingRetarget, rfl⟩
  · split
    · exact ⟨none, rfl⟩
    · exact ⟨bridge.pendingRetarget, rfl⟩

@[simp] theorem fireRetarget_state (bridge : AbletonBridge) :
    bridge.fireRetarget.1.state = bridge.state := by
  obtain ⟨_, fired⟩ := bridge.fireRetarget_fst
  rw [fired]

@[simp] theorem fireRetarget_lastRawCues (bridge : AbletonBridge) :
    bridge.fireRetarget.1.lastRawCues = bridge.lastRawCues := by
  obtain ⟨_, fired⟩ := bridge.fireRetarget_fst
  rw [fired]

/-- A position report keeps the songs and at most clears the cache. -/
theorem CacheFits.handleBeat
    (fits : bridge.CacheFits)
    (isBeatBoundary : Bool)
    (args : List OscArgument) :
    (bridge.handleBeat isBeatBoundary args).1.CacheFits := by
  cases args with
  | nil => exact fits
  | cons first rest =>
  simp only [AbletonBridge.handleBeat]
  cases first.number? with
  | none => exact fits
  | some newPosition =>
  refine fits.congr ?_ ?_ ?_
  · simp [updateIndices, storePosition]
  · simp [updateIndices, storePosition]
  · simp only [fireRetarget_lastRawCues, storePosition]
    split
    · exact Or.inr rfl
    · exact Or.inl rfl

/-! ## What a message can write -/

/-- How a message leaves the bridge: one of four handlers has handled it, or
at most values are stored that nothing else is derived from. -/
inductive Dispatched (bridge : AbletonBridge) (args : List OscArgument) :
    String → AbletonBridge → Prop
  | cuePoints :
      Dispatched bridge args "/live/song/get/cue_points"
        (bridge.handleCuePoints args).1
  | position {address : String} (isBeatBoundary : Bool) :
      Dispatched bridge args address (bridge.handleBeat isBeatBoundary args).1
  | trackNames :
      Dispatched bridge args "/live/song/get/track_names"
        (bridge.handleTrackNames args).1
  | clipNames :
      Dispatched bridge args "/live/track/get/clips/name"
        (bridge.handleCueClipNames args)
  | values {address : String}
      (tracks : List Track) (trackMeters : Dict Int ℚ) (isPlaying : Bool)
      (tempo : ℚ) (timeSignatureNumerator : Int) :
      Dispatched bridge args address
        { bridge with state := { bridge.state with
            tracks := tracks
            trackMeters := trackMeters
            isPlaying := isPlaying
            tempo := tempo
            timeSignatureNumerator := timeSignatureNumerator } }

theorem Dispatched.unchanged {address : String} {args : List OscArgument} :
    Dispatched bridge args address bridge :=
  .values bridge.state.tracks bridge.state.trackMeters bridge.state.isPlaying
    bridge.state.tempo bridge.state.timeSignatureNumerator

/-- Every message is handled in one of these ways. -/
theorem dispatched
    (bridge : AbletonBridge)
    (address : String)
    (args : List OscArgument) :
    Dispatched bridge args address (bridge.dispatch address args).1 := by
  unfold dispatch
  split
  · exact .cuePoints
  · exact .position true
  · exact .position false
  · exact .trackNames
  · exact .clipNames
  · unfold handleTrackMute
    split
    · split
      · exact .unchanged
      · exact .values _ _ _ _ _
    · exact .unchanged
  · unfold handleTrackMeter
    split
    · split
      · exact .values _ _ _ _ _
      · exact .unchanged
    · exact .unchanged
  · unfold handleIsPlaying
    split
    · exact .unchanged
    · exact .values _ _ _ _ _
  · unfold handleTempo
    split
    · exact .unchanged
    · exact .values _ _ _ _ _
  · unfold handleSignatureNumerator
    split
    · exact .unchanged
    · exact .values _ _ _ _ _
  · exact .unchanged

/-- Every handler keeps the cache and the songs matched. -/
theorem CacheFits.dispatch
    (fits : bridge.CacheFits)
    (address : String)
    (args : List OscArgument) :
    (bridge.dispatch address args).1.CacheFits := by
  have handled := bridge.dispatched address args
  generalize (bridge.dispatch address args).1 = after at handled
  cases handled with
  | cuePoints => exact fits.handleCuePoints args
  | position isBeatBoundary => exact fits.handleBeat isBeatBoundary args
  | trackNames =>
      simp only [handleTrackNames]
      split
      · exact fits
      · exact fits.congr rfl rfl (Or.inl rfl)
  | clipNames =>
      unfold handleCueClipNames
      split
      · exact fits
      · split
        · exact fits
        · split
          · exact fits
          · exact fits.congr rfl rfl (Or.inl rfl)
  | values => exact fits.congr rfl rfl (Or.inl rfl)

theorem CacheFits.handle
    (fits : bridge.CacheFits)
    (event : Event) :
    (bridge.handle event).1.CacheFits := by
  cases event with
  | datagram now address args =>
      have heard : CacheFits { bridge with lastReceived := now } :=
        fits.congr rfl rfl (Or.inl rfl)
      exact heard.dispatch address args
  | cuesGenerated | guideAnalyzed | analysisApplied =>
      exact fits.congr rfl rfl (Or.inr rfl)
  | watchdogTick now =>
      simp only [AbletonBridge.handle, watchdog]
      split
      · exact fits
      · exact fits.congr rfl rfl (Or.inl rfl)
  | meterTick =>
      simp only [AbletonBridge.handle, pollTrackMeters]
      split
      · exact fits
      · exact fits.congr rfl rfl (Or.inl rfl)

/-! ## Whole runs -/

/-- In every run, the state follows every reply exactly when no empty reply is
hidden by a cleared cache. -/
theorem follows_iff_not_missesEmptyReply
    {steps : List (Step AbletonBridge Event)}
    (run : Run exec {} steps after) :
    (∀ step ∈ steps, ∀ now args,
      step.label = .datagram now cuePointsAddress args →
      step.after.Follows (decodeCues args)) ↔
    ∀ step ∈ steps, ∀ now args,
      step.label = .datagram now cuePointsAddress args →
      ¬step.before.MissesEmptyReply args := by
  refine forall₂_congr fun step member =>
    forall₃_congr fun now args reply => ?_
  obtain ⟨past, future, rfl⟩ := List.append_of_mem member
  obtain ⟨pastRun, taken, _⟩ := run.split
  have fits : step.before.CacheFits :=
    pastRun.invariant CacheFits ⟨[], rfl, rfl, Or.inl rfl⟩
      fun current event next currentFits nextTaken =>
        Option.some.inj nextTaken ▸ currentFits.handle event
  have handled : step.after = ({ step.before with
      lastReceived := now }.handleCuePoints args).1 := by
    rw [reply] at taken
    exact (Option.some.inj taken).symm
  have heard : CacheFits { step.before with lastReceived := now } :=
    fits.congr rfl rfl (Or.inl rfl)
  rw [handled]
  exact handleCuePoints_follows_iff heard

/-- A reply with one cue point, as Ableton sends it. -/
def oneCueReply (name : String) (position : ℚ) : List OscArgument :=
  [⟨name, none, none, true, false⟩,
    ⟨"", some (.finite position), none, true, false⟩]

/-- A position report. -/
def positionReport (position : ℚ) : List OscArgument :=
  [⟨"", some (.finite position), none, true, false⟩]

private def missesReply (step : Step AbletonBridge Event) : Bool :=
  match step.label with
  | .datagram _ _ args => decide (step.before.MissesEmptyReply args)
  | _ => false

/-- Two sets, one after the other, with a jump back in between. -/
theorem follows_iff_not_missesEmptyReply_reload :
    ∃ steps finish, replay exec {}
        [.datagram 0 cuePointsAddress (oneCueReply "== A ==" 0),
          .datagram 1 "/live/song/get/beat" (positionReport 64),
          .datagram 2 "/live/song/get/beat" (positionReport 0),
          .datagram 3 cuePointsAddress (oneCueReply "== B ==" 4)] =
        some (steps, finish) ∧
      finish.state.songs.map Song.name = ["B"] ∧
      ∀ step ∈ steps, ∀ now args,
        step.label = .datagram now cuePointsAddress args →
        step.after.Follows (decodeCues args) := by
  have runs : (replay exec {}
      [.datagram 0 cuePointsAddress (oneCueReply "== A ==" 0),
        .datagram 1 "/live/song/get/beat" (positionReport 64),
        .datagram 2 "/live/song/get/beat" (positionReport 0),
        .datagram 3 cuePointsAddress (oneCueReply "== B ==" 4)]).map
      (fun result =>
        decide (result.2.state.songs.map Song.name = ["B"]) &&
          result.1.all fun step => !missesReply step) = some true := by
    decide +kernel
  obtain ⟨⟨steps, finish⟩, replayed, facts⟩ := Option.map_eq_some_iff.mp runs
  rw [Bool.and_eq_true, decide_eq_true_eq, List.all_eq_true] at facts
  refine ⟨steps, finish, replayed, facts.1, ?_⟩
  refine (follows_iff_not_missesEmptyReply (run_of_replay replayed)).mpr ?_
  intro step member now args reply
  have safe := facts.2 step member
  simpa [missesReply, reply] using safe

/-- A set with one song is closed: playback is at the start again and the new
set has no cue points, but the song stays. -/
theorem not_follows_of_emptied_set :
    ∃ steps finish, replay exec {}
        [.datagram 0 cuePointsAddress (oneCueReply "== A ==" 0),
          .datagram 1 "/live/song/get/beat" (positionReport 64),
          .datagram 2 "/live/song/get/beat" (positionReport 0),
          .datagram 3 cuePointsAddress []] = some (steps, finish) ∧
      decodeCues [] = [] ∧ ¬finish.Follows [] ∧
      finish.state.songs.map Song.name = ["A"] ∧
      finish.state.cueCount = 1 := by
  have runs : (replay exec {}
      [.datagram 0 cuePointsAddress (oneCueReply "== A ==" 0),
        .datagram 1 "/live/song/get/beat" (positionReport 64),
        .datagram 2 "/live/song/get/beat" (positionReport 0),
        .datagram 3 cuePointsAddress []]).map (fun result =>
          decide (¬result.2.Follows [] ∧
            result.2.state.songs.map Song.name = ["A"] ∧
            result.2.state.cueCount = 1)) = some true := by
    decide +kernel
  obtain ⟨⟨steps, finish⟩, replayed, facts⟩ := Option.map_eq_some_iff.mp runs
  exact ⟨steps, finish, replayed, rfl, of_decide_eq_true facts⟩

end AbletonBridge
end AbletonTracks
