import AbletonTracks.Server.Jumps

/-!
# Superseded retargets

A jump with a cue clip schedules a retarget, which the next jump replaces or
clears only after its own broadcast.  Until then a position report may reach
the launch beat and snap playback to the old target.
-/

namespace AbletonTracks

open Library

namespace System

variable {s after : System} {event : Event}
  {steps : List (Step System Event)}

/-- The newest jump is still in its broadcast. -/
def NewestInProgress (log : JumpLog) (s : System) : Prop :=
  ∃ ws ∈ log.requests.keys, log.requests.get? ws = some log.accepted ∧
    s.landing? ws ≠ none

instance (log : JumpLog) (s : System) : Decidable (NewestInProgress log s) :=
  inferInstanceAs (Decidable (∃ _ ∈ log.requests.keys, _))

/-- Every command that snaps playback carries the target of the jump that
wrote the queue last. -/
def SnapsToNewest (log : JumpLog) (step : Step System Event) : Prop :=
  ∀ entry ∈ newCommands step, ∀ target,
    entry.2 = .setCurrentSongTime target → log.scheduledBy = log.queuedBy

/-- The retarget that an event makes due. -/
def dueNow? (s : System) : Event → Option Retarget
  | .ableton event => s.ableton.dueRetarget? event
  | _ => none

/-- A retarget falls due while the newest jump is still in its broadcast, or
after a jump that was not the newest any more has scheduled it. -/
def DueSuperseded (log : JumpLog) (s : System) (event : Event) : Prop :=
  (s.dueNow? event).isSome ∧
    (NewestInProgress log s ∨ log.scheduledLate = true)

instance (log : JumpLog) (s : System) (event : Event) :
    Decidable (DueSuperseded log s event) :=
  inferInstanceAs (Decidable (_ ∧ _))

/-- Who scheduled the retarget that is pending. -/
structure Schedules (log : JumpLog) (s : System) : Prop where
  bounded : ∀ number, log.scheduledBy = some number → number ≤ log.accepted
  /-- A jump in progress has scheduled nothing yet. -/
  notYet : ∀ ws number, s.landing? ws ≠ none →
    log.requests.get? ws = some number → log.scheduledBy ≠ some number
  late : log.scheduledLate = true → log.scheduledBy ≠ some log.accepted
  pending : s.ableton.pendingRetarget ≠ none →
    0 < log.accepted ∧
      (NewestInProgress log s ∨ log.scheduledLate = true ∨
        log.scheduledBy = some log.accepted)

theorem schedules_initial : Schedules {} {} where
  bounded number impossible := by cases impossible
  notYet ws number pending := absurd rfl pending
  late impossible := by cases impossible
  pending impossible := absurd rfl impossible

theorem newestInProgress_iff {log : JumpLog} :
    NewestInProgress log s ↔
      ∃ ws, log.requests.get? ws = some log.accepted ∧
        s.landing? ws ≠ none := by
  constructor
  · rintro ⟨ws, _, found, pending⟩
    exact ⟨ws, found, pending⟩
  · rintro ⟨ws, found, pending⟩
    refine ⟨ws, ?_, found, pending⟩
    exact Dict.mem_iff_mem_keys.mp
      (Dict.mem_iff_exists_get?.mpr ⟨_, found⟩)

theorem Schedules.grows
    {log later : JumpLog}
    (schedules : Schedules log s)
    (fits : log.Fits s)
    (grows : log.Grows s event later after) :
    Schedules later after := by
  cases grows with
  | keeps _ _ same retarget =>
      refine ⟨schedules.bounded, ?_, schedules.late, ?_⟩
      · intro ws number pending
        exact schedules.notYet ws number (by rwa [same] at pending)
      · intro armed
        rcases retarget with kept | cleared
        · obtain ⟨some', owner⟩ := schedules.pending (kept ▸ armed)
          refine ⟨some', owner.imp_left ?_⟩
          rintro ⟨ws, member, found, pending⟩
          exact ⟨ws, member, found, by rwa [same]⟩
        · exact absurd cleared armed
  | @accepts ws _ _ _ begins others _ =>
      have notNew : log.scheduledBy ≠ some (log.accepted + 1) := by
        intro new
        have bound := schedules.bounded _ new
        omega
      refine ⟨?_, ?_, fun _ => notNew, fun _ => ⟨Nat.succ_pos _, Or.inl ?_⟩⟩
      · intro number scheduled
        exact Nat.le_succ_of_le (schedules.bounded number scheduled)
      · intro other number pending found
        rcases JumpLog.get?_accept found with ⟨_, rfl⟩ | ⟨different, earlier⟩
        · exact notNew
        · rw [others other different] at pending
          exact schedules.notYet other number pending earlier
      · exact newestInProgress_iff.mpr
          ⟨ws, Dict.get?_insert_self _ _ _, begins⟩
  | @jumps ws jump number _ now numbered own others cleared =>
      refine ⟨schedules.bounded, ?_, schedules.late,
        fun armed => absurd cleared armed⟩
      intro other number pending found
      have different : other ≠ ws := by
        rintro rfl
        exact pending own
      rw [others other different] at pending
      exact schedules.notYet other number pending found
  | @fires ws jump number _ now numbered own others =>
      obtain ⟨positive, bound⟩ := fits.bounded _ _ numbered
      refine ⟨?_, ?_, ?_, fun _ => ⟨by simp only; omega, Or.inr ?_⟩⟩
      · rintro _ ⟨⟩
        exact bound
      · rintro other _ pending found ⟨⟩
        obtain rfl := fits.distinct _ _ _ numbered found
        exact pending own
      · intro late same
        exact of_decide_eq_true late (Option.some.inj same)
      · by_cases newest : number = log.accepted
        · exact Or.inr (congrArg some newest)
        · exact Or.inl (decide_eq_true newest)

theorem schedules_jumpLog
    (run : Run exec {} steps s) :
    Schedules (jumpLog steps) s := by
  refine run.historyInvariant
    (fun past current => Schedules (jumpLog past) current)
    schedules_initial ?_
  intro past current event next pastRun schedules taken
  exact schedules.grows (fits_jumpLog pastRun) (grows_of_run pastRun taken)

/-! ## Which retarget is due -/

theorem not_mem_loopFor_snap (target : Section) (beat : ℚ) :
    .send (.setCurrentSongTime beat) ∉ loopFor target := by
  unfold loopFor
  split
  · split <;> simp [AbletonBridge.setLoopRegion, AbletonBridge.disableLoop]
  · simp [AbletonBridge.disableLoop]

/-- No handler snaps playback. -/
theorem Acts.not_snaps
    {beat : ℚ} {entry : Option WebSocket × Command}
    (acts : s.Acts event after)
    (notBridge : ∀ own, event ≠ .ableton own)
    (member : entry ∈ newCommands ⟨s, event, after⟩) :
    entry.2 ≠ .setCurrentSongTime beat := by
  obtain ⟨origin, command⟩ := entry
  rintro ⟨⟩
  cases acts with
  | asks harmless _ commands _ =>
      rw [newCommands_of_append commands] at member
      exact harmless _ member trivial
  | orders _ command _ commands _ =>
      rw [newCommands_of_append commands, List.mem_singleton] at member
      obtain rfl := congrArg Prod.snd member
      simp at command
  | stops _ _ commands _ =>
      rw [newCommands_of_append commands, List.mem_singleton] at member
      cases congrArg Prod.snd member
  | accepts _ _ _ _ commands _ _ =>
      rw [newCommands_of_append commands] at member
      exact not_mem_loopFor_snap _ _ (mem_commandsOf.mp member).2
  | lands _ _ commands _ _ =>
      rcases s.land_cases _ _ with ⟨_, _, _, fires, _⟩ | ⟨_, jumps, _⟩
      · rw [newCommands_of_append (commands.trans fires),
          List.mem_singleton] at member
        cases congrArg Prod.snd member
      · rw [newCommands_of_append (commands.trans jumps),
          List.mem_singleton] at member
        cases congrArg Prod.snd member
  | handles => exact notBridge _ rfl

/-- Playback snaps exactly to the target of the retarget that is due. -/
theorem snaps_iff
    {beat : ℚ}
    (fits : s.Fits)
    (taken : s.exec event = some after) :
    (∃ entry ∈ newCommands ⟨s, event, after⟩,
      entry.2 = .setCurrentSongTime beat) ↔
    ∃ retarget ∈ s.dueNow? event, retarget.target = beat := by
  have acts := acts_of_exec fits taken
  cases event with
  | ableton own =>
      have new : newCommands ⟨s, .ableton own, after⟩ =
          commandsOf none (s.ableton.handle own).2 :=
        newCommands_of_append (handles_of_ableton taken).2
      rw [new]
      refine Iff.trans ?_ ((s.ableton.handle_retarget own).1 beat)
      constructor
      · rintro ⟨⟨origin, command⟩, member, rfl⟩
        exact (mem_commandsOf.mp member).2
      · intro sent
        exact ⟨(none, _), mem_commandsOf.mpr ⟨rfl, sent⟩, rfl⟩
  | _ =>
      refine iff_of_false ?_ ?_
      · rintro ⟨entry, member, snaps⟩
        exact acts.not_snaps (by simp) member snaps
      · rintro ⟨retarget, impossible, _⟩
        cases impossible

/-- A retarget that is due is pending. -/
theorem pending_of_dueNow?
    {retarget : Retarget}
    (due : s.dueNow? event = some retarget) :
    s.ableton.pendingRetarget ≠ none := by
  cases event with
  | ableton own =>
      obtain ⟨position, _, reached⟩ := Option.bind_eq_some_iff.mp due
      intro nothing
      simp [AbletonBridge.retargetAt?, nothing] at reached
  | _ => cases due

/-- A step snaps playback to the newest jump's target only, exactly when no
superseded retarget falls due. -/
theorem snapsToNewest_iff
    {log : JumpLog}
    (fits : s.Fits)
    (taken : s.exec event = some after)
    (numbers : log.Fits s)
    (schedules : Schedules log s) :
    SnapsToNewest log ⟨s, event, after⟩ ↔ ¬DueSuperseded log s event := by
  constructor
  · rintro newest ⟨due, superseded⟩
    obtain ⟨retarget, due⟩ := Option.isSome_iff_exists.mp due
    obtain ⟨entry, member, snaps⟩ :=
      (snaps_iff fits taken).mpr ⟨retarget, due, rfl⟩
    obtain ⟨begun, _⟩ := schedules.pending (pending_of_dueNow? due)
    have scheduled : log.scheduledBy = some log.accepted :=
      (newest entry member _ snaps).trans (numbers.written begun).1
    rcases superseded with inProgress | late
    · obtain ⟨ws, found, pending⟩ := newestInProgress_iff.mp inProgress
      exact schedules.notYet ws _ pending found scheduled
    · exact schedules.late late scheduled
  · intro inTime entry member beat snaps
    obtain ⟨retarget, due, _⟩ :=
      (snaps_iff fits taken).mp ⟨entry, member, snaps⟩
    obtain ⟨begun, owner⟩ := schedules.pending (pending_of_dueNow? due)
    rw [(numbers.written begun).1]
    have isDue : (s.dueNow? event).isSome := Option.isSome_of_mem due
    rcases owner with inProgress | late | scheduled
    · exact absurd ⟨isDue, Or.inl inProgress⟩ inTime
    · exact absurd ⟨isDue, Or.inr late⟩ inTime
    · exact scheduled

/-- In every run playback snaps to the newest jump's target only, exactly when
no superseded retarget falls due. -/
theorem snapsToNewest_iff_not_dueSuperseded
    (run : Run exec {} steps s) :
    (∀ past step future, steps = past ++ step :: future →
      SnapsToNewest (jumpLog past) step) ↔
    ∀ past step future, steps = past ++ step :: future →
      ¬DueSuperseded (jumpLog past) step.before step.label := by
  refine forall₂_congr fun past step => forall₂_congr fun future whole => ?_
  obtain rfl := whole
  obtain ⟨pastRun, taken, _⟩ := run.split
  exact snapsToNewest_iff (fits_of_reachable pastRun.reachable) taken
    (fits_jumpLog pastRun) (schedules_jumpLog pastRun)

/-- Ableton replies with a cue clip for the second section. -/
private def clipForVerse : List Event :=
  [.ableton (.datagram 0 "/live/song/get/track_names"
      [⟨"Cue Clips", none, none, true, false⟩]),
    .ableton (.datagram 0 "/live/track/get/clips/name"
      [⟨"0", some (.finite 0), some 0, false, false⟩,
        ⟨"Verse", none, none, true, false⟩])]

/-- A position report at the launch beat. -/
private def launchBeatReached : Event :=
  .ableton (.datagram 1 (AbletonBridge.positionAddress true)
    (AbletonBridge.positionReport 4))

private def inTime (log : JumpLog) (step : Step System Event) : Bool :=
  decide (¬DueSuperseded log step.before step.label)

/-- A jump with a cue clip, whose retarget falls due. -/
theorem snapsToNewest_iff_not_dueSuperseded_cueClip :
    ∃ steps s, replay exec {} ([songOfTwo] ++ clipForVerse ++
        [.accept ⟨0⟩ stageTablet "c0"] ++ resumes (.handler ⟨0⟩) 3 ++
        [.receive ⟨0⟩ (.jump (some 0) (some 1))] ++
        resumes (.handler ⟨0⟩) 1 ++ [launchBeatReached]) =
        some (steps, s) ∧
      (none, .setCurrentSongTime 12) ∈ s.commands ∧
      ∀ past step future, steps = past ++ step :: future →
        SnapsToNewest (jumpLog past) step := by
  have runs : (replay exec {} ([songOfTwo] ++ clipForVerse ++
      [.accept ⟨0⟩ stageTablet "c0"] ++ resumes (.handler ⟨0⟩) 3 ++
      [.receive ⟨0⟩ (.jump (some 0) (some 1))] ++
      resumes (.handler ⟨0⟩) 1 ++ [launchBeatReached])).map (fun result =>
        decide ((none, .setCurrentSongTime 12) ∈ result.2.commands) &&
          everyStep inTime {} result.1) = some true := by
    decide +kernel
  obtain ⟨⟨steps, s⟩, replayed, facts⟩ := Option.map_eq_some_iff.mp runs
  rw [Bool.and_eq_true, decide_eq_true_eq] at facts
  refine ⟨steps, s, replayed, facts.1,
    (snapsToNewest_iff_not_dueSuperseded (run_of_replay replayed)).mpr ?_⟩
  intro past step future whole
  exact of_decide_eq_true (test_of_everyStep facts.2 past step future whole)

private def snapsElsewhere (log : JumpLog) (step : Step System Event) :
    Bool :=
  decide ((none, .setCurrentSongTime 12) ∈ newCommands step ∧
    log.scheduledBy = some 1 ∧ log.queuedBy = some 2)

/-- The same with a second jump in its broadcast at the launch beat. -/
theorem not_snapsToNewest_of_secondJump :
    ∃ steps s, replay exec {} ([songOfTwo] ++ clipForVerse ++
        [.accept ⟨0⟩ stageTablet "c0"] ++ resumes (.handler ⟨0⟩) 3 ++
        [.receive ⟨0⟩ (.jump (some 0) (some 1))] ++
        resumes (.handler ⟨0⟩) 1 ++
        [.receive ⟨0⟩ (.jump (some 0) (some 0))]) = some (steps, s) ∧
      s.ableton.state.queued = (0, 0, some 4) ∧
      ∃ after, s.exec launchBeatReached = some after ∧
        ¬SnapsToNewest (jumpLog steps) ⟨s, launchBeatReached, after⟩ := by
  have runs : (replay exec {} ([songOfTwo] ++ clipForVerse ++
      [.accept ⟨0⟩ stageTablet "c0"] ++ resumes (.handler ⟨0⟩) 3 ++
      [.receive ⟨0⟩ (.jump (some 0) (some 1))] ++
      resumes (.handler ⟨0⟩) 1 ++
      [.receive ⟨0⟩ (.jump (some 0) (some 0))])).map (fun result =>
        decide (result.2.ableton.state.queued = (0, 0, some 4)) &&
        ((result.2.exec launchBeatReached).map fun after =>
          snapsElsewhere (jumpLog result.1)
            ⟨result.2, launchBeatReached, after⟩) = some true) =
      some true := by
    decide +kernel
  obtain ⟨⟨steps, s⟩, replayed, facts⟩ := Option.map_eq_some_iff.mp runs
  rw [Bool.and_eq_true, decide_eq_true_eq, decide_eq_true_eq] at facts
  obtain ⟨queued, fires⟩ := facts
  obtain ⟨after, taken, snaps⟩ := Option.map_eq_some_iff.mp fires
  obtain ⟨sent, scheduledBy, queuedBy⟩ := of_decide_eq_true snaps
  refine ⟨steps, s, replayed, queued, after, taken, ?_⟩
  intro newest
  have same := newest _ sent 12 rfl
  rw [scheduledBy, queuedBy] at same
  cases same

end System
end AbletonTracks
