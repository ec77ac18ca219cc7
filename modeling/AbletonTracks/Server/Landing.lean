import AbletonTracks.Parser.Current
import AbletonTracks.Server.Control
import AbletonTracks.Server.Indices

/-!
# When a queued jump is cleared

A position report clears the queued jump when playback is in the section that
the jump goes to, whatever the launch beat.  A jump that lands is therefore
cleared only if the beat it lands on still lies in its section, and a jump may
be cleared long before it lands.
-/

namespace AbletonTracks

open Library

/-- The section goes on for more than so many beats. -/
def Section.Exceeds (item : Section) (beats : ℚ) : Prop :=
  0 ≤ beats ∧ ∀ length ∈ item.length, beats < length

instance (item : Section) (beats : ℚ) : Decidable (item.Exceeds beats) :=
  inferInstanceAs (Decidable (_ ∧ ∀ length ∈ item.length, _))

/-- Playback is still in a section so many beats after its marker exactly when
the section is longer. -/
theorem Section.spans_add_iff (item : Section) (beats : ℚ) :
    item.Spans (item.position + beats) ↔ item.Exceeds beats := by
  simp [Section.Spans, Section.Exceeds]

namespace System

variable {s after : System} {event : Event}
  {steps : List (Step System Event)}

/-! ## What a position report does to the queue -/

/-- The position that an event reports. -/
def reported? : Event → Option ℚ
  | .ableton event => AbletonBridge.reportedPosition? event
  | _ => none

/-- Playback would be in the section that the queued jump goes to. -/
def InQueuedSection (state : AppState) (position : ℚ) : Prop :=
  ∃ entry ∈ Parser.entries state.songs,
    entry.1 = (state.queuedSongIndex, state.queuedSectionIndex) ∧
      entry.2.Spans position

instance (state : AppState) (position : ℚ) :
    Decidable (InQueuedSection state position) :=
  inferInstanceAs (Decidable (∃ _ ∈ Parser.entries state.songs, _))

/-- The current indices are the queued ones in the queued section only. -/
theorem inQueuedSection_iff
    {state : AppState}
    (parsed : ∃ cues, state.songs = Parser.parseMarkers cues)
    (position : ℚ) :
    InQueuedSection state position ↔
      state.queuedSongIndex ≠ -1 ∧
        Parser.findCurrentIndices state.songs position =
          (state.queuedSongIndex, state.queuedSectionIndex) := by
  obtain ⟨cues, songs⟩ := parsed
  rw [InQueuedSection, songs]
  constructor
  · rintro ⟨⟨indices, item⟩, member, rfl, spans⟩
    have nonneg := (Parser.mem_entries_iff.mp member).1
    exact ⟨by omega, (Parser.findCurrentIndices_eq_iff member).mpr spans⟩
  · rintro ⟨queued, current⟩
    rcases Parser.pointsInto_findCurrentIndices
        (fun _ member => Parser.parsed_of_mem_parseMarkers member)
        position with nowhere | inside
    · rw [current] at nowhere
      exact absurd (congrArg Prod.fst nowhere) queued
    · rw [current] at inside
      obtain ⟨item, member⟩ := Parser.pointsInto_iff.mp inside
      exact ⟨_, member, rfl,
        (Parser.findCurrentIndices_eq_iff member).mp current⟩

/-- A position report clears the queued jump exactly in its section. -/
theorem queued_of_reports
    {position : ℚ}
    (reachable : Reachable exec {} s)
    (taken : s.exec event = some after)
    (reports : reported? event = some position) :
    after.ableton.state.queued =
      if InQueuedSection s.ableton.state position then (-1, -1, none)
      else s.ableton.state.queued := by
  cases event with
  | ableton event =>
      rw [(handles_of_ableton taken).1,
        s.ableton.queued_of_reported reports]
      simp only [inQueuedSection_iff (indicesFit_of_reachable reachable).parsed]
  | _ => cases reports

/-! ## Jumps that land -/

/-- Indices of an entry lead to its section. -/
theorem sectionAt?_of_mem_entries
    {songIndex sectionIndex : Int} {target : Section}
    (listed : ((songIndex, sectionIndex), target) ∈
      Parser.entries s.ableton.state.songs) :
    sectionAt? s.ableton.state songIndex sectionIndex = some target := by
  obtain ⟨songNonneg, sectionNonneg, song, shown, inSong⟩ :=
    Parser.mem_entries_iff.mp listed
  simp [sectionAt?, itemAt?_of_nonneg songNonneg,
    itemAt?_of_nonneg sectionNonneg, shown, inSong]

/-- The beat that a jump lands on: its retarget if the landing has scheduled
one, and else the marker of its section. -/
def landingBeat (landing : Step System Event) (jump : Jump) : ℚ :=
  (landing.after.ableton.pendingRetarget.map Retarget.target).getD
    jump.target.position

/-- The beats of its section that a jump skips: with a cue clip a bar. -/
def skipped (s : System) (jump : Jump) : ℚ :=
  if (s.ableton.cueClipForSection? jump.target.name).isSome then
    jump.beatsPerBar
  else 0

/-- A jump lands as many beats after its marker as it skips. -/
theorem landingBeat_eq
    {landing : Step System Event} {ws : WebSocket} {jump : Jump}
    (fits : landing.before.Fits)
    (taken : exec landing.before landing.label = some landing.after)
    (lands : landing.before.landsNow? landing.label = some (ws, jump)) :
    landingBeat landing jump =
      jump.target.position + landing.before.skipped jump := by
  obtain ⟨ableton, _⟩ := land_of_lands fits taken lands
  rw [landingBeat, ableton, skipped]
  rcases landing.before.land_cases ws jump with
    ⟨track, clip, found, _, schedules⟩ | ⟨found, _, clears⟩
  · rw [schedules, found]
    rfl
  · rw [clears, found]
    exact (add_zero _).symm

/-- The primary taps a section, its jump lands after its broadcast, and while
it is still queued Ableton reports the beat it lands on.  The report clears
the queue exactly when the section is longer than what the jump skips. -/
theorem cleared_iff_exceeds
    {past sends waits : List (Step System Event)}
    {tap landing : Step System Event}
    {ws : WebSocket} {songIndex sectionIndex : Int}
    {target : Section} {jump : Jump}
    (run : Run exec {} (past ++ tap :: (sends ++ landing :: waits)) s)
    (taps : tap.label = .receive ws (.jump (some songIndex)
      (some sectionIndex)))
    (primary : tap.before.manager.primary = some ws)
    (listed : ((songIndex, sectionIndex), target) ∈
      Parser.entries tap.before.ableton.state.songs)
    (notYet : ∀ step ∈ sends, ∀ landed,
      step.before.landsNow? step.label ≠ some (ws, landed))
    (lands : landing.before.landsNow? landing.label = some (ws, jump))
    (shown : s.ableton.state.songs = tap.before.ableton.state.songs)
    (queued : s.ableton.state.queued = tap.after.ableton.state.queued)
    (taken : s.exec event = some after)
    (reports : reported? event = some (landingBeat landing jump)) :
    after.ableton.state.queued = (-1, -1, none) ↔
      target.Exceeds (landing.before.skipped jump) := by
  obtain ⟨pastRun, tapTaken, rest⟩ := run.split
  obtain ⟨sendRun, landTaken, _⟩ := rest.split
  have found := sectionAt?_of_mem_entries listed
  -- The jump that lands is the one that the tap began.
  rw [taps] at tapTaken
  obtain ⟨_, tapRun⟩ := pastRun.reachable.step tapTaken
  have leads : jump.target = target := by
    rw [eq_jumpTo_of_lands pastRun.reachable tapTaken primary found sendRun
      notYet lands]
    rfl
  have beat := landingBeat_eq
    (fits_of_reachable (tapRun.append sendRun).reachable) landTaken lands
  rw [leads] at beat
  -- It is still queued when its beat is reported.
  rw [queued_of_receive (fits_of_reachable pastRun.reachable) tapTaken primary
    found] at queued
  simp only [AppState.queued, Prod.mk.injEq] at queued
  obtain ⟨song, item, launch⟩ := queued
  have inside : InQueuedSection s.ableton.state (landingBeat landing jump) ↔
      target.Exceeds (landing.before.skipped jump) := by
    rw [← Section.spans_add_iff, ← beat, InQueuedSection, shown, song, item]
    constructor
    · rintro ⟨entry, member, same, spans⟩
      rwa [Parser.indices_injective member listed same] at spans
    · intro spans
      exact ⟨_, listed, rfl, spans⟩
  rw [queued_of_reports run.reachable taken reports, ← inside]
  split
  · rename_i spans
    exact iff_of_true rfl spans
  · rename_i outside
    refine iff_of_false ?_ outside
    simp [AppState.queued, launch]

/-- Ableton reports a position at a beat boundary. -/
def reportAt (position : ℚ) : Event :=
  .ableton (.datagram 1 (AbletonBridge.positionAddress true)
    (AbletonBridge.positionReport position))

private def landsInVerse (tap landing : Step System Event) (s : System) :
    Bool :=
  decide (tap.before.manager.primary = some ⟨0⟩ ∧
    ((0, 1), ⟨"Verse", 8, 1, false, none⟩) ∈
      Parser.entries tap.before.ableton.state.songs ∧
    landing.before.landsNow? landing.label =
      some (⟨0⟩, ⟨⟨"Verse", 8, 1, false, none⟩, 4, 4⟩) ∧
    s.ableton.state.songs = tap.before.ableton.state.songs ∧
    s.ableton.state.queued = tap.after.ableton.state.queued ∧
    reported? (reportAt 8) =
      some (landingBeat landing ⟨⟨"Verse", 8, 1, false, none⟩, 4, 4⟩) ∧
    (⟨"Verse", 8, 1, false, none⟩ : Section).Exceeds
      (landing.before.skipped ⟨⟨"Verse", 8, 1, false, none⟩, 4, 4⟩))

/-- A jump to the verse lands there. -/
theorem cleared_iff_exceeds_verse :
    ∃ steps s after, replay exec {} ([songOfTwo,
        .accept ⟨0⟩ stageTablet "c0"] ++ resumes (.handler ⟨0⟩) 3 ++
        [.receive ⟨0⟩ (.jump (some 0) (some 1)),
          .resume (.handler ⟨0⟩) false]) = some (steps, s) ∧
      s.exec (reportAt 8) = some after ∧
      after.ableton.state.queued = (-1, -1, none) := by
  have runs : (replay exec {} ([songOfTwo,
      .accept ⟨0⟩ stageTablet "c0"] ++ resumes (.handler ⟨0⟩) 3 ++
      [.receive ⟨0⟩ (.jump (some 0) (some 1)),
        .resume (.handler ⟨0⟩) false])).map (fun result =>
        (lastTwo? result.1).any fun last =>
          landsInVerse last.1 last.2 result.2) = some true := by
    decide +kernel
  obtain ⟨⟨steps, s⟩, replayed, facts⟩ := Option.map_eq_some_iff.mp runs
  have run := run_of_replay replayed
  obtain ⟨past, tap, landing, rfl, taps, _, last⟩ :=
    lastTwo_of_replay replayed
  obtain ⟨after, taken⟩ : ∃ after, s.exec (reportAt 8) = some after :=
    ⟨_, rfl⟩
  refine ⟨_, s, after, replayed, taken, ?_⟩
  simp only [last, Option.any_some, landsInVerse, decide_eq_true_eq] at facts
  obtain ⟨primary, listed, lands, shown, queued, reports, exceeds⟩ := facts
  have whole : Run exec {} (past ++ tap :: ([] ++ landing :: [])) s := run
  have cleared := cleared_iff_exceeds whole taps primary listed (by simp)
    lands shown queued taken reports
  exact cleared.mpr exceeds

/-- A song opens with a section at the header itself.  A jump to its start
lands, and stays queued. -/
theorem not_cleared_of_sharedMarker :
    ∃ s after, execAll exec {} ([.ableton (.datagram 0
          AbletonBridge.cuePointsAddress
          (AbletonBridge.oneCueReply "== A ==" 0 ++
            AbletonBridge.oneCueReply "Intro" 0)),
        .accept ⟨0⟩ stageTablet "c0"] ++ resumes (.handler ⟨0⟩) 3 ++
        [.receive ⟨0⟩ (.jump (some 0) (some 0))] ++
        resumes (.handler ⟨0⟩) 1) = some s ∧
      ((0, 0), ⟨"Start", 0, 0, false, some 0⟩) ∈
        Parser.entries s.ableton.state.songs ∧
      s.landing? ⟨0⟩ = none ∧
      (some ⟨0⟩, .cuePointJump 0) ∈ s.commands ∧
      s.exec (reportAt 0) = some after ∧
      after.ableton.state.queued = (0, 0, some 4) := by
  have runs : (execAll exec {} ([.ableton (.datagram 0
        AbletonBridge.cuePointsAddress
        (AbletonBridge.oneCueReply "== A ==" 0 ++
          AbletonBridge.oneCueReply "Intro" 0)),
      .accept ⟨0⟩ stageTablet "c0"] ++ resumes (.handler ⟨0⟩) 3 ++
      [.receive ⟨0⟩ (.jump (some 0) (some 0))] ++
      resumes (.handler ⟨0⟩) 1)).map (fun s =>
        decide (((0, 0), ⟨"Start", 0, 0, false, some 0⟩) ∈
            Parser.entries s.ableton.state.songs ∧
          s.landing? ⟨0⟩ = none ∧
          (some ⟨0⟩, .cuePointJump 0) ∈ s.commands ∧
          (s.exec (reportAt 0)).map
            (fun after => after.ableton.state.queued) =
            some (0, 0, some 4))) = some true := by
    decide +kernel
  obtain ⟨s, executed, facts⟩ := Option.map_eq_some_iff.mp runs
  obtain ⟨listed, landed, jumps, stays⟩ := of_decide_eq_true facts
  obtain ⟨after, taken, queued⟩ := Option.map_eq_some_iff.mp stays
  exact ⟨s, after, executed, listed, landed, jumps, taken, queued⟩

/-! ## Jumps that have not landed yet -/

/-- A position report before the launch beat leaves the queued jump alone. -/
def KeepsQueued (step : Step System Event) : Prop :=
  ∀ position ∈ reported? step.label,
    ∀ launchBeat ∈ step.before.ableton.state.queuedLaunchBeat,
      step.before.ableton.state.currentPosition ≤ position →
      position < launchBeat →
      step.after.ableton.state.queued = step.before.ableton.state.queued

instance (step : Step System Event) : Decidable (KeepsQueued step) :=
  inferInstanceAs (Decidable (∀ position ∈ reported? step.label,
    ∀ launchBeat ∈ step.before.ableton.state.queuedLaunchBeat, _))

/-- Before the launch beat playback is reported in the section that the queued
jump goes to: it plays already, or playback passes through it. -/
def PassesQueued (s : System) (event : Event) : Prop :=
  ∃ position ∈ reported? event,
    ∃ launchBeat ∈ s.ableton.state.queuedLaunchBeat,
      s.ableton.state.currentPosition ≤ position ∧ position < launchBeat ∧
        InQueuedSection s.ableton.state position

instance (s : System) (event : Event) : Decidable (s.PassesQueued event) :=
  inferInstanceAs (Decidable (∃ position ∈ reported? event,
    ∃ launchBeat ∈ s.ableton.state.queuedLaunchBeat, _))

/-- A position report drops a queued jump exactly in its section. -/
theorem keepsQueued_iff
    (reachable : Reachable exec {} s)
    (taken : s.exec event = some after) :
    KeepsQueued ⟨s, event, after⟩ ↔ ¬s.PassesQueued event := by
  constructor
  · rintro keeps ⟨position, reports, launchBeat, queued, onward, early, inside⟩
    have same := keeps position reports launchBeat queued onward early
    simp only [queued_of_reports reachable taken reports, if_pos inside]
      at same
    have launch : none = s.ableton.state.queuedLaunchBeat :=
      congrArg (fun queued => queued.2.2) same
    rw [← launch] at queued
    cases queued
  · intro elsewhere position reports launchBeat queued onward early
    have outside : ¬InQueuedSection s.ableton.state position := fun inside =>
      elsewhere ⟨position, reports, launchBeat, queued, onward, early, inside⟩
    exact (queued_of_reports reachable taken reports).trans (if_neg outside)

/-- In every run, position reports leave a queued jump alone until its launch
beat exactly when none before it comes from the section that the jump goes
to. -/
theorem keepsQueued_iff_not_passesQueued
    (run : Run exec {} steps s) :
    (∀ step ∈ steps, KeepsQueued step) ↔
      ∀ step ∈ steps, ¬step.before.PassesQueued step.label := by
  refine forall₂_congr fun step member => ?_
  obtain ⟨past, future, rfl⟩ := List.append_of_mem member
  obtain ⟨pastRun, taken, _⟩ := run.split
  exact keepsQueued_iff pastRun.reachable taken

/-- A jump to the verse is queued while the song opens. -/
theorem keepsQueued_iff_not_passesQueued_verse :
    ∃ steps s, replay exec {} ([songOfTwo,
        .accept ⟨0⟩ stageTablet "c0"] ++ resumes (.handler ⟨0⟩) 3 ++
        [.receive ⟨0⟩ (.jump (some 0) (some 1))] ++
        resumes (.handler ⟨0⟩) 1 ++ [reportAt 1]) = some (steps, s) ∧
      s.ableton.state.queued = (0, 1, some 4) ∧
      ∀ step ∈ steps, KeepsQueued step := by
  have runs : (replay exec {} ([songOfTwo,
      .accept ⟨0⟩ stageTablet "c0"] ++ resumes (.handler ⟨0⟩) 3 ++
      [.receive ⟨0⟩ (.jump (some 0) (some 1))] ++
      resumes (.handler ⟨0⟩) 1 ++ [reportAt 1])).map (fun result =>
        decide (result.2.ableton.state.queued = (0, 1, some 4) ∧
          ∀ step ∈ result.1, ¬step.before.PassesQueued step.label)) =
      some true := by
    decide +kernel
  obtain ⟨⟨steps, s⟩, replayed, facts⟩ := Option.map_eq_some_iff.mp runs
  obtain ⟨queued, elsewhere⟩ := of_decide_eq_true facts
  exact ⟨steps, s, replayed, queued,
    (keepsQueued_iff_not_passesQueued (run_of_replay replayed)).mpr elsewhere⟩

/-- A jump back to the section that plays is dropped by the next report. -/
theorem not_keepsQueued_of_current :
    ∃ steps s, replay exec {} ([songOfTwo,
        .accept ⟨0⟩ stageTablet "c0"] ++ resumes (.handler ⟨0⟩) 3 ++
        [.receive ⟨0⟩ (.jump (some 0) (some 0))] ++
        resumes (.handler ⟨0⟩) 1) = some (steps, s) ∧
      s.ableton.state.queued = (0, 0, some 4) ∧
      s.ableton.state.currentPosition = 0 ∧
      ∃ after, s.exec (reportAt 1) = some after ∧
        after.ableton.state.queued = (-1, -1, none) ∧
        ¬KeepsQueued ⟨s, reportAt 1, after⟩ := by
  have runs : (replay exec {} ([songOfTwo,
      .accept ⟨0⟩ stageTablet "c0"] ++ resumes (.handler ⟨0⟩) 3 ++
      [.receive ⟨0⟩ (.jump (some 0) (some 0))] ++
      resumes (.handler ⟨0⟩) 1)).map (fun result =>
        decide (result.2.ableton.state.queued = (0, 0, some 4) ∧
          result.2.ableton.state.currentPosition = 0 ∧
          (result.2.exec (reportAt 1)).map (fun after => decide (
            after.ableton.state.queued = (-1, -1, none) ∧
            ¬KeepsQueued ⟨result.2, reportAt 1, after⟩)) = some true)) =
      some true := by
    decide +kernel
  obtain ⟨⟨steps, s⟩, replayed, facts⟩ := Option.map_eq_some_iff.mp runs
  obtain ⟨queued, position, drops⟩ := of_decide_eq_true facts
  obtain ⟨after, taken, dropped⟩ := Option.map_eq_some_iff.mp drops
  exact ⟨steps, s, replayed, queued, position, after, taken,
    of_decide_eq_true dropped⟩

end System
end AbletonTracks
