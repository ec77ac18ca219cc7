import AbletonTracks.Parser.Current
import AbletonTracks.Server.Indices
import AbletonTracks.Server.Retargets

/-!
# What stays queued

The queue is written by a jump, the songs it points into by the bridge, and
the play state by Ableton.  So a queued jump may outlive its section, and it
and a retarget may outlive a stop that the server did not order.
-/

namespace AbletonTracks

open Library

namespace System

variable {s after : System} {event : Event}
  {steps : List (Step System Event)}

/-! ## The queued section exists -/

/-- Nothing is queued, or a jump to a section of the songs. -/
def QueueValid (state : AppState) : Prop :=
  state.queuedSongIndex = -1 ∨
    Parser.PointsInto state.songs
      (state.queuedSongIndex, state.queuedSectionIndex)

instance (state : AppState) : Decidable (QueueValid state) :=
  inferInstanceAs (Decidable (_ ∨ _))

/-- The arguments of a reply with the cue points. -/
def cueReply? : Event → Option (List OscArgument)
  | .ableton (.datagram _ address args) =>
      if address = AbletonBridge.cuePointsAddress then some args else none
  | _ => none

theorem cueReply?_eq_some {args : List OscArgument} :
    cueReply? event = some args ↔ ∃ now, event =
      .ableton (.datagram now AbletonBridge.cuePointsAddress args) := by
  constructor
  · intro replies
    unfold cueReply? at replies
    split at replies
    · split at replies
      · rename_i isReply
        obtain rfl := Option.some.inj replies
        exact ⟨_, by rw [isReply]⟩
      · cases replies
    · cases replies
  · rintro ⟨now, rfl⟩
    simp [cueReply?]

/-- A jump to wrapped indices is accepted, or new songs arrive that have no
section at the queued indices. -/
def StrandsQueue (s : System) (event : Event) : Prop :=
  (∃ tap ∈ tap? event, s.manager.primary = some tap.socket ∧
    Wraps s.ableton.state tap.songIndex tap.sectionIndex ∧
    tap.songIndex ≠ -1) ∨
  ∃ args ∈ cueReply? event,
    AbletonBridge.rawKey (AbletonBridge.decodeCues args) ≠
      s.ableton.lastRawCues ∧
    s.ableton.state.queuedSongIndex ≠ -1 ∧
    ¬Parser.PointsInto
      (Parser.parseMarkers (AbletonBridge.decodeCues args))
      (s.ableton.state.queuedSongIndex, s.ableton.state.queuedSectionIndex)

instance (s : System) (event : Event) : Decidable (s.StrandsQueue event) :=
  inferInstanceAs (Decidable
    ((∃ tap ∈ tap? event, _) ∨ ∃ args ∈ cueReply? event, _))

theorem QueueValid.congr
    {state later : AppState}
    (valid : QueueValid state)
    (songs : later.songs = state.songs)
    (queued : later.queued = state.queued) :
    QueueValid later := by
  simp only [AppState.queued, Prod.mk.injEq] at queued
  obtain ⟨song, item, _⟩ := queued
  rwa [QueueValid, songs, song, item]

/-- An empty queue is valid with any songs. -/
theorem queueValid_of_cleared
    {state : AppState}
    (cleared : state.queued = (-1, -1, none)) :
    QueueValid state :=
  Or.inl (congrArg Prod.fst cleared)

/-- A reply that is not the cached one keeps the queue valid exactly when its
own songs have a section at the queued indices. -/
theorem queueValid_handleCuePoints_iff
    {bridge : AbletonBridge} {args : List OscArgument}
    (changed : AbletonBridge.rawKey (AbletonBridge.decodeCues args) ≠
      bridge.lastRawCues) :
    QueueValid (bridge.handleCuePoints args).1.state ↔
      bridge.state.queuedSongIndex = -1 ∨
        Parser.PointsInto
          (Parser.parseMarkers (AbletonBridge.decodeCues args))
          (bridge.state.queuedSongIndex, bridge.state.queuedSectionIndex) := by
  obtain ⟨⟨songs, _⟩, _⟩ := AbletonBridge.handleCuePoints_of_ne changed
  have queued := (bridge.handleCuePoints_keeps args).1
  simp only [AppState.queued, Prod.mk.injEq] at queued
  obtain ⟨song, item, _⟩ := queued
  rw [QueueValid, songs, song, item]

/-- What the bridge handles keeps the queue valid unless it strands it. -/
theorem queueValid_handle
    {event : AbletonBridge.Event}
    (valid : QueueValid s.ableton.state)
    (keeps : ¬s.StrandsQueue (.ableton event)) :
    QueueValid (s.ableton.handle event).1.state := by
  have handled := s.ableton.handles event
  generalize s.ableton.handle event = result at handled
  cases handled with
  | @cues now args =>
      have heard : QueueValid
          ({ s.ableton with lastReceived := now } : AbletonBridge).state :=
        valid
      generalize cached : ({ s.ableton with lastReceived := now } :
        AbletonBridge) = bridge at heard ⊢
      by_cases unchanged : AbletonBridge.rawKey
          (AbletonBridge.decodeCues args) = bridge.lastRawCues
      · rwa [AbletonBridge.handleCuePoints_of_eq unchanged]
      · rw [queueValid_handleCuePoints_iff unchanged]
        subst cached
        by_contra stranded
        rw [not_or] at stranded
        exact keeps (Or.inr ⟨args, cueReply?_eq_some.mpr ⟨now, rfl⟩,
          unchanged, stranded⟩)
  | @position now isBeatBoundary args =>
      rcases AbletonBridge.handleBeat_queued_cases
          { s.ableton with lastReceived := now } isBeatBoundary args with
        kept | cleared
      · exact valid.congr (AbletonBridge.handleBeat_songs _ _ _) kept
      · exact queueValid_of_cleared cleared
  | other _ _ same _ => exact valid.congr same.songs same.queued

theorem Acts.queueValid
    (acts : s.Acts event after)
    (valid : QueueValid s.ableton.state)
    (keeps : ¬s.StrandsQueue event) :
    QueueValid after.ableton.state := by
  cases acts with
  | asks _ ableton _ _ | orders _ _ ableton _ _ => rwa [ableton]
  | stops _ ableton _ _ =>
      rw [ableton]
      exact queueValid_of_cleared rfl
  | @accepts ws songIndex sectionIndex target _ primary _ found ableton _ _
      _ =>
      have accepted : (sectionAt? s.ableton.state songIndex
          sectionIndex).isSome := by simp [found]
      rw [ableton]
      change songIndex = -1 ∨
        Parser.PointsInto s.ableton.state.songs (songIndex, sectionIndex)
      rcases sectionAt?_isSome_cases.mp accepted with inside | wraps
      · exact Or.inr inside
      · left
        by_contra other
        exact keeps (Or.inl ⟨_, rfl, primary, wraps, other⟩)
  | lands _ ableton _ _ _ =>
      rw [ableton]
      obtain ⟨_, same⟩ := s.land_ableton _ _
      rw [same]
      exact valid
  | handles ableton _ _ =>
      rw [ableton]
      exact queueValid_handle valid keeps

/-- Whatever strands the queue leaves it pointing to no section. -/
theorem not_queueValid_of_strandsQueue
    (fits : s.Fits)
    (taken : s.exec event = some after)
    (strands : s.StrandsQueue event) :
    ¬QueueValid after.ableton.state := by
  rcases strands with ⟨tap, taps, primary, ⟨found, negative⟩, other⟩ |
    ⟨args, replies, changed, stranded⟩
  · rw [tap?_eq_some.mp taps] at taken
    obtain ⟨target, found⟩ := Option.isSome_iff_exists.mp found
    rw [(begins_of_receive fits taken primary found).1]
    change ¬(tap.songIndex = -1 ∨ Parser.PointsInto s.ableton.state.songs
      (tap.songIndex, tap.sectionIndex))
    rintro (same | ⟨songNonneg, sectionNonneg, _⟩)
    · exact other same
    · simp only at songNonneg sectionNonneg
      omega
  · obtain ⟨now, rfl⟩ := cueReply?_eq_some.mp replies
    rw [(handles_of_ableton taken).1]
    have heard : AbletonBridge.rawKey (AbletonBridge.decodeCues args) ≠
        ({ s.ableton with lastReceived := now } :
          AbletonBridge).lastRawCues := changed
    change ¬QueueValid ({ s.ableton with
      lastReceived := now }.handleCuePoints args).1.state
    rwa [queueValid_handleCuePoints_iff heard, not_or]

/-- In every run the queued jump goes to a section of the current songs,
exactly when no jump to wrapped indices is accepted and no new songs lack the
queued section. -/
theorem queueValid_iff_not_strandsQueue
    (run : Run exec {} steps s) :
    (∀ step ∈ steps, QueueValid step.after.ableton.state) ↔
      ∀ step ∈ steps, ¬step.before.StrandsQueue step.label := by
  constructor
  · intro valid step member strands
    obtain ⟨past, future, rfl⟩ := List.append_of_mem member
    obtain ⟨pastRun, taken, _⟩ := run.split
    exact not_queueValid_of_strandsQueue
      (fits_of_reachable pastRun.reachable) taken strands (valid step member)
  · intro keeps
    refine run.conditionalInvariant_after
      (fun current => QueueValid current.ableton.state)
      (fun current event => ¬current.StrandsQueue event)
      (Or.inl rfl) ?_ keeps
    intro current event next reachable valid kept taken
    exact (acts_of_exec (fits_of_reachable reachable) taken).queueValid valid
      kept

/-- A jump to the verse is queued while the verse moves. -/
theorem queueValid_iff_not_strandsQueue_verse :
    ∃ steps s, replay exec {} ([songOfTwo,
        .accept ⟨0⟩ stageTablet "c0"] ++ resumes (.handler ⟨0⟩) 3 ++
        [.receive ⟨0⟩ (.jump (some 0) (some 1)),
          .ableton (.datagram 1 AbletonBridge.cuePointsAddress
            (AbletonBridge.oneCueReply "== A ==" 0 ++
              AbletonBridge.oneCueReply "Verse" 16))]) = some (steps, s) ∧
      s.ableton.state.queued = (0, 1, some 4) ∧
      ∀ step ∈ steps, QueueValid step.after.ableton.state := by
  have runs : (replay exec {} ([songOfTwo,
      .accept ⟨0⟩ stageTablet "c0"] ++ resumes (.handler ⟨0⟩) 3 ++
      [.receive ⟨0⟩ (.jump (some 0) (some 1)),
        .ableton (.datagram 1 AbletonBridge.cuePointsAddress
          (AbletonBridge.oneCueReply "== A ==" 0 ++
            AbletonBridge.oneCueReply "Verse" 16))])).map (fun result =>
        decide (result.2.ableton.state.queued = (0, 1, some 4) ∧
          ∀ step ∈ result.1, ¬step.before.StrandsQueue step.label)) =
      some true := by
    decide +kernel
  obtain ⟨⟨steps, s⟩, replayed, facts⟩ := Option.map_eq_some_iff.mp runs
  obtain ⟨queued, kept⟩ := of_decide_eq_true facts
  exact ⟨steps, s, replayed, queued,
    (queueValid_iff_not_strandsQueue (run_of_replay replayed)).mpr kept⟩

/-- The verse is deleted while a jump to it is queued. -/
theorem not_queueValid_of_deletedMarker :
    ∃ s, execAll exec {} ([songOfTwo,
        .accept ⟨0⟩ stageTablet "c0"] ++ resumes (.handler ⟨0⟩) 3 ++
        [.receive ⟨0⟩ (.jump (some 0) (some 1)),
          .ableton (.datagram 1 AbletonBridge.cuePointsAddress
            (AbletonBridge.oneCueReply "== A ==" 0))]) = some s ∧
      s.ableton.state.fullSnapshot.queuedSongIndex = 0 ∧
      s.ableton.state.fullSnapshot.queuedSectionIndex = 1 ∧
      s.ableton.state.fullSnapshot.songs =
        [⟨"A", 0, [⟨"Start", 0, 0, false, none⟩]⟩] ∧
      ¬QueueValid s.ableton.state := by
  have runs : (execAll exec {} ([songOfTwo,
      .accept ⟨0⟩ stageTablet "c0"] ++ resumes (.handler ⟨0⟩) 3 ++
      [.receive ⟨0⟩ (.jump (some 0) (some 1)),
        .ableton (.datagram 1 AbletonBridge.cuePointsAddress
          (AbletonBridge.oneCueReply "== A ==" 0))])).map (fun s =>
        decide (s.ableton.state.fullSnapshot.queuedSongIndex = 0 ∧
          s.ableton.state.fullSnapshot.queuedSectionIndex = 1 ∧
          s.ableton.state.fullSnapshot.songs =
            [⟨"A", 0, [⟨"Start", 0, 0, false, none⟩]⟩] ∧
          ¬QueueValid s.ableton.state)) = some true := by
    decide +kernel
  obtain ⟨s, executed, facts⟩ := Option.map_eq_some_iff.mp runs
  exact ⟨s, executed, of_decide_eq_true facts⟩

/-! ## What a stop leaves behind -/

/-- No jump is queued and no retarget is armed. -/
def NothingPending (bridge : AbletonBridge) : Prop :=
  bridge.state.queued = (-1, -1, none) ∧ bridge.pendingRetarget = none

instance (bridge : AbletonBridge) : Decidable (NothingPending bridge) :=
  inferInstanceAs (Decidable (_ ∧ _))

/-- The primary stops playback, or it is found stopped. -/
def Halts (step : Step System Event) : Prop :=
  stopsNow step = true ∨
    step.before.ableton.state.isPlaying = true ∧
      step.after.ableton.state.isPlaying = false

instance (step : Step System Event) : Decidable (Halts step) :=
  inferInstanceAs (Decidable (_ ∨ _ ∧ _))

/-- The primary's stop leaves nothing pending. -/
theorem nothingPending_of_stopsNow
    (taken : s.exec event = some after)
    (stops : stopsNow ⟨s, event, after⟩ = true) :
    NothingPending after.ableton := by
  simp only [stopsNow] at stops
  split at stops
  · rename_i ws
    obtain ⟨_, heard⟩ := hear_of_receive taken
    have isPrimary : s.manager.isPrimary ws = true := by
      simpa [ConnectionManager.isPrimary] using stops
    have stopped : after = s.stop ws := by
      rw [← heard]
      exact if_pos isPrimary
    rw [stopped]
    exact ⟨rfl, rfl⟩
  · cases stops

/-- Playback that is found stopped leaves the queue and the retarget alone. -/
theorem pending_of_foundStopped
    (fits : s.Fits)
    (taken : s.exec event = some after)
    (ordered : stopsNow ⟨s, event, after⟩ = false)
    (plays : s.ableton.state.isPlaying = true)
    (stopped : after.ableton.state.isPlaying = false) :
    after.ableton.state.queued = s.ableton.state.queued ∧
      after.ableton.pendingRetarget = s.ableton.pendingRetarget := by
  have absurd_of_same : after.ableton.state.isPlaying =
      s.ableton.state.isPlaying → False := by
    intro same
    rw [same, plays] at stopped
    cases stopped
  cases acts_of_exec fits taken with
  | asks _ ableton _ _ | orders _ _ ableton _ _ =>
      rw [ableton]
      exact ⟨rfl, rfl⟩
  | stops primary _ _ _ => simp [stopsNow, primary] at ordered
  | accepts _ _ _ ableton _ _ _ =>
      exact (absurd_of_same (by rw [ableton]; rfl)).elim
  | lands _ ableton _ _ _ =>
      obtain ⟨_, same⟩ := s.land_ableton _ _
      exact (absurd_of_same (by rw [ableton, same])).elim
  | @handles event _ ableton _ _ =>
      have handled := s.ableton.handles event
      generalize s.ableton.handle event = result at handled ableton
      cases handled with
      | cues =>
          refine (absurd_of_same ?_).elim
          rw [ableton]
          exact (AbletonBridge.handleCuePoints_keeps _ _).2.1
      | position =>
          refine (absurd_of_same ?_).elim
          rw [ableton]
          exact AbletonBridge.handleBeat_isPlaying _ _ _
      | other _ _ same _ =>
          rw [ableton]
          exact ⟨same.queued, same.retarget⟩

/-- A step that stops playback leaves nothing pending exactly when it is the
primary's stop, or nothing was pending. -/
theorem nothingPending_after_iff
    (fits : s.Fits)
    (taken : s.exec event = some after)
    (halts : Halts ⟨s, event, after⟩) :
    NothingPending after.ableton ↔
      stopsNow ⟨s, event, after⟩ = true ∨ NothingPending s.ableton := by
  cases ordered : stopsNow ⟨s, event, after⟩ with
  | true =>
      exact iff_of_true (nothingPending_of_stopsNow taken ordered)
        (Or.inl rfl)
  | false =>
      rcases halts with stops | ⟨plays, stopped⟩
      · rw [ordered] at stops
        cases stops
      · obtain ⟨queued, retarget⟩ :=
          pending_of_foundStopped fits taken ordered plays stopped
        simp [NothingPending, queued, retarget]

/-- With nothing pending, nothing comes to be pending until a jump is accepted
or lands. -/
theorem Acts.nothingPending
    (acts : s.Acts event after)
    (idle : NothingPending s.ableton)
    (noJump : acceptsFrom? ⟨s, event, after⟩ = none)
    (noLanding : s.landsNow? event = none) :
    NothingPending after.ableton := by
  cases acts with
  | asks _ ableton _ _ | orders _ _ ableton _ _ => rwa [ableton]
  | stops _ ableton _ _ =>
      rw [ableton]
      exact ⟨rfl, rfl⟩
  | accepts _ before _ _ _ own _ => simp [acceptsFrom?, before, own] at noJump
  | lands now _ _ _ _ =>
      rw [noLanding] at now
      cases now
  | @handles event _ ableton _ _ =>
      rw [ableton]
      constructor
      · rcases s.ableton.queued_handle event with kept | cleared
        · exact kept.trans idle.1
        · exact cleared
      · rw [(s.ableton.handle_retarget event).2, idle.2]
        cases s.ableton.dueRetarget? event <;> rfl

/-- Nothing that is not pending takes effect. -/
theorem not_snaps_of_nothingPending
    (fits : s.Fits)
    (taken : s.exec event = some after)
    (idle : NothingPending s.ableton) :
    ∀ entry ∈ newCommands ⟨s, event, after⟩, ∀ beat,
      entry.2 ≠ .setCurrentSongTime beat := by
  intro entry member beat snaps
  obtain ⟨retarget, due, _⟩ :=
    (snaps_iff fits taken).mp ⟨entry, member, snaps⟩
  exact pending_of_dueNow? due idle.2

/-- Until the next jump nothing comes to be pending, and playback does not
snap. -/
theorem nothingPending_of_run
    (reachable : Reachable exec {} s)
    (idle : NothingPending s.ableton)
    (run : Run exec s steps after)
    (quiet : ∀ step ∈ steps, acceptsFrom? step = none ∧
      step.before.landsNow? step.label = none) :
    NothingPending after.ableton ∧
      ∀ step ∈ steps, ∀ entry ∈ newCommands step, ∀ beat,
        entry.2 ≠ .setCurrentSongTime beat := by
  refine run.conditionalHistoryInvariant
    (fun past current => NothingPending current.ableton ∧
      ∀ step ∈ past, ∀ entry ∈ newCommands step, ∀ beat,
        entry.2 ≠ .setCurrentSongTime beat)
    (fun _ step => acceptsFrom? step = none ∧
      step.before.landsNow? step.label = none)
    ⟨idle, by simp⟩ ?_ ?_
  · rintro past current event next pastRun ⟨still, silent⟩
      ⟨noJump, noLanding⟩ taken
    obtain ⟨_, earlier⟩ := reachable
    have fits := fits_of_reachable (earlier.append pastRun).reachable
    refine ⟨(acts_of_exec fits taken).nothingPending still noJump noLanding,
      ?_⟩
    intro step member
    rcases List.mem_append.mp member with before | now
    · exact silent step before
    · obtain rfl := List.mem_singleton.mp now
      exact not_snaps_of_nothingPending fits taken still
  · rintro past step future rfl
    exact quiet step (List.mem_append_right _ List.mem_cons_self)

/-- Ableton reports whether playback runs. -/
private def playing (runs : Bool) : Event :=
  .ableton (.datagram 1 "/live/song/get/is_playing"
    [⟨"", none, none, runs, false⟩])

end System
end AbletonTracks
