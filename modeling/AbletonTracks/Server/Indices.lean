import AbletonTracks.Server.Driving

/-!
# The current and the queued indices

The current indices are always those of the position in the songs; jumps and
stops do not touch them.  The queued indices are whatever a jump asked for: a
negative index is a valid one of a Python list, so a jump whose fields are
missing goes to the last section of the last song.
-/

namespace AbletonTracks

open Library

namespace System

variable {s after : System} {c : Coroutine} {event : Event}

/-! ## The current indices -/

theorem Acts.indicesFit
    (acts : s.Acts event after)
    (fits : AbletonBridge.IndicesFit s.ableton.state) :
    AbletonBridge.IndicesFit after.ableton.state := by
  cases acts with
  | asks _ ableton _ _ | orders _ _ ableton _ _ =>
      rw [ableton]
      exact fits
  | stops _ ableton _ _ =>
      rw [ableton]
      exact fits.congr rfl rfl rfl
  | accepts _ _ _ ableton _ _ _ =>
      rw [ableton]
      exact fits.congr rfl rfl rfl
  | lands _ ableton _ _ _ =>
      rw [ableton]
      obtain ⟨_, same⟩ := s.land_ableton _ _
      rw [same]
      exact fits
  | handles ableton _ _ =>
      rw [ableton]
      exact AbletonBridge.indicesFit_handle _ fits _

/-- In every reachable state the songs are parsed from some cue points, and
the indices are those of the position in them. -/
theorem indicesFit_of_reachable
    (reachable : Reachable System.exec {} s) :
    AbletonBridge.IndicesFit s.ableton.state := by
  have both : s.Fits ∧ AbletonBridge.IndicesFit s.ableton.state := by
    refine reachable.invariant
      (fun current => current.Fits ∧
        AbletonBridge.IndicesFit current.ableton.state)
      ⟨fits_initial, AbletonBridge.indicesFit_initial⟩ ?_
    rintro current event next ⟨fits, indices⟩ taken
    exact ⟨fits.exec taken, (acts_of_exec fits taken).indicesFit indices⟩
  exact both.2

/-- In every reachable state the current indices are those of the position in
the songs, and they are both -1 or those of a section. -/
theorem indices_of_reachable
    (reachable : Reachable System.exec {} s) :
    s.ableton.state.indices = Parser.findCurrentIndices s.ableton.state.songs
      s.ableton.state.currentPosition ∧
    (s.ableton.state.indices = (-1, -1) ∨
      Parser.PointsInto s.ableton.state.songs s.ableton.state.indices) := by
  have fits := indicesFit_of_reachable reachable
  exact ⟨fits.current, fits.pointsInto⟩

/-- Playback is in the second section while a jump to the first is queued. -/
theorem indices_of_reachable_verse :
    ∃ s, execAll exec {} ([songOfTwo,
        .ableton (.datagram 1 (AbletonBridge.positionAddress true)
          (AbletonBridge.positionReport 9)),
        .accept ⟨0⟩ stageTablet "c0"] ++ resumes (.handler ⟨0⟩) 3 ++
        [.receive ⟨0⟩ (.jump (some 0) (some 0))]) = some s ∧
      s.ableton.state.queued = (0, 0, some 12) ∧
      s.ableton.state.indices = (0, 1) ∧
      s.ableton.state.indices = Parser.findCurrentIndices
        s.ableton.state.songs s.ableton.state.currentPosition ∧
      (s.ableton.state.indices = (-1, -1) ∨
        Parser.PointsInto s.ableton.state.songs s.ableton.state.indices) := by
  have runs : (execAll exec {} ([songOfTwo,
      .ableton (.datagram 1 (AbletonBridge.positionAddress true)
        (AbletonBridge.positionReport 9)),
      .accept ⟨0⟩ stageTablet "c0"] ++ resumes (.handler ⟨0⟩) 3 ++
      [.receive ⟨0⟩ (.jump (some 0) (some 0))])).map (fun s =>
        decide (s.ableton.state.queued = (0, 0, some 12) ∧
          s.ableton.state.indices = (0, 1))) = some true := by
    decide +kernel
  obtain ⟨s, executed, facts⟩ := Option.map_eq_some_iff.mp runs
  obtain ⟨queued, indices⟩ := of_decide_eq_true facts
  exact ⟨s, executed, queued, indices,
    indices_of_reachable (reachable_of_execAll executed)⟩

/-! ## The queued indices -/

/-- A jump is accepted although an index is negative: it counts from the
end. -/
def Wraps (state : AppState) (songIndex sectionIndex : Int) : Prop :=
  (sectionAt? state songIndex sectionIndex).isSome ∧
    (songIndex < 0 ∨ sectionIndex < 0)

instance (state : AppState) (songIndex sectionIndex : Int) :
    Decidable (Wraps state songIndex sectionIndex) :=
  inferInstanceAs (Decidable (_ ∧ _))

/-- A jump does nothing unless its indices are those of a section, which it
then queues. -/
def JumpsOnlyInto
    (s : System)
    (ws : WebSocket)
    (songIndex sectionIndex : Int) : Prop :=
  (¬Parser.PointsInto s.ableton.state.songs (songIndex, sectionIndex) →
    (s.handleJump ws (some songIndex) (some sectionIndex)).commands =
      s.commands ∧
    (s.handleJump ws (some songIndex) (some sectionIndex)).sent = s.sent ∧
    (s.handleJump ws (some songIndex) (some sectionIndex)).ableton.state =
      s.ableton.state) ∧
  (Parser.PointsInto s.ableton.state.songs (songIndex, sectionIndex) →
    ∃ launchBeat,
      (s.handleJump ws (some songIndex)
        (some sectionIndex)).ableton.state.queued =
      (songIndex, sectionIndex, some launchBeat))

/-- A message makes such a jump. -/
def QueuesWrapped (s : System) : Event → Prop
  | .receive ws (.jump (some songIndex) (some sectionIndex)) =>
      s.manager.primary = some ws ∧
        Wraps s.ableton.state songIndex sectionIndex
  | _ => False

/-- A launch beat is queued exactly with two indices that are not negative. -/
def QueueFits (state : AppState) : Prop :=
  state.queuedLaunchBeat.isSome ↔
    0 ≤ state.queuedSongIndex ∧ 0 ≤ state.queuedSectionIndex

instance (state : AppState) : Decidable (QueueFits state) :=
  inferInstanceAs (Decidable (_ ↔ _))

theorem queueFits_congr
    (state other : AppState)
    (same : other.queued = state.queued) :
    QueueFits other ↔ QueueFits state := by
  simp only [AppState.queued, Prod.mk.injEq] at same
  obtain ⟨song, section', beat⟩ := same
  rw [QueueFits, QueueFits, song, section', beat]

/-! ### Which indices are accepted -/

theorem itemAt?_of_nonneg
    {α : Type} {items : List α} {index : Int}
    (nonneg : 0 ≤ index) :
    itemAt? items index = items[index.toNat]? :=
  if_pos nonneg

/-- With indices that are not negative, a section is found at them exactly
when they are those of a section. -/
theorem sectionAt?_isSome_iff
    {state : AppState} {songIndex sectionIndex : Int}
    (songNonneg : 0 ≤ songIndex)
    (sectionNonneg : 0 ≤ sectionIndex) :
    (sectionAt? state songIndex sectionIndex).isSome ↔
      Parser.PointsInto state.songs (songIndex, sectionIndex) := by
  simp only [sectionAt?, Option.bind_eq_bind,
    itemAt?_of_nonneg songNonneg, itemAt?_of_nonneg sectionNonneg,
    Parser.PointsInto, songNonneg, sectionNonneg, true_and]
  cases found : state.songs[songIndex.toNat]? with
  | none => simp
  | some song =>
      simp only [Option.bind_some, Option.some.injEq, exists_eq_left']
      rw [Option.isSome_iff_ne_none, Ne, List.getElem?_eq_none_iff]
      omega

/-- Indices of a section are accepted, and other ones only when one wraps. -/
theorem sectionAt?_isSome_cases
    {state : AppState} {songIndex sectionIndex : Int} :
    (sectionAt? state songIndex sectionIndex).isSome ↔
      Parser.PointsInto state.songs (songIndex, sectionIndex) ∨
        Wraps state songIndex sectionIndex := by
  by_cases nonneg : 0 ≤ songIndex ∧ 0 ≤ sectionIndex
  · rw [sectionAt?_isSome_iff nonneg.1 nonneg.2]
    refine ⟨Or.inl, ?_⟩
    rintro (inside | ⟨_, negative⟩)
    · exact inside
    · omega
  · constructor
    · intro found
      exact Or.inr ⟨found, by omega⟩
    · rintro (⟨songNonneg, sectionNonneg, _⟩ | wraps)
      · exact absurd ⟨songNonneg, sectionNonneg⟩ nonneg
      · exact wraps.1

/-- A jump message with both its indices, and the socket it comes from. -/
structure Tap where
  socket : WebSocket
  songIndex : Int
  sectionIndex : Int
  deriving DecidableEq

/-- The jump message that an event brings. -/
def tap? : Event → Option Tap
  | .receive ws (.jump (some songIndex) (some sectionIndex)) =>
      some ⟨ws, songIndex, sectionIndex⟩
  | _ => none

theorem tap?_eq_some {tap : Tap} :
    tap? event = some tap ↔ event =
      .receive tap.socket (.jump (some tap.songIndex)
        (some tap.sectionIndex)) := by
  constructor
  · intro taps
    unfold tap? at taps
    split at taps
    · obtain rfl := Option.some.inj taps
      rfl
    · cases taps
  · rintro rfl
    rfl

/-! ### What an accepted jump leaves behind -/

/-- Running on changes the bridge's state no more, and takes no command
back. -/
theorem run_keeps
    (s : System)
    (ws : WebSocket)
    (todo : List Todo)
    (jump : Jump) :
    (s.run (.handler ws) todo (.land jump)).ableton.state = s.ableton.state ∧
      ∃ further, (s.run (.handler ws) todo (.land jump)).commands =
        s.commands ++ further := by
  unfold run
  split
  · have calms := s.calms_unwind (.handler ws)
    rw [calms.ableton, calms.commands]
    exact ⟨rfl, [], (List.append_nil _).symm⟩
  · simp only [conclude, enter_ableton]
    change _ ∧ ∃ further, (s.land ws jump).commands = s.commands ++ further
    rcases s.land_cases ws jump with
      ⟨track, clip, _, commands, ableton⟩ | ⟨_, commands, ableton⟩
    · rw [ableton, commands]
      exact ⟨rfl, _, rfl⟩
    · rw [ableton, commands]
      exact ⟨rfl, _, rfl⟩
  · exact ⟨rfl, [], (List.append_nil _).symm⟩

/-- A jump binds a loop or releases it, so it always sends a command. -/
theorem commandsOf_loopFor_ne_nil
    (origin : Option WebSocket)
    (target : Section) :
    commandsOf origin (loopFor target) ≠ [] := by
  unfold loopFor
  split
  · split <;> simp [commandsOf, AbletonBridge.setLoopRegion,
      AbletonBridge.disableLoop, Effect.command?]
  · simp [commandsOf, AbletonBridge.disableLoop, Effect.command?]

/-- An accepted jump is queued, and sends a command. -/
theorem handleJump_of_sectionAt?
    (ws : WebSocket)
    {songIndex sectionIndex : Int}
    {target : Section}
    (found : sectionAt? s.ableton.state songIndex sectionIndex =
      some target) :
    (s.handleJump ws (some songIndex)
      (some sectionIndex)).ableton.state.queued =
      (songIndex, sectionIndex,
        some ((jumpTo s.ableton.state target).launchBeat : ℚ)) ∧
    (s.handleJump ws (some songIndex) (some sectionIndex)).commands ≠
      s.commands := by
  simp only [handleJump, found]
  obtain ⟨ableton, _, commands, _⟩ := (s.queue songIndex sectionIndex
    (jumpTo s.ableton.state target)).performAll_eq (some ws) (loopFor target)
  obtain ⟨state, further, later⟩ := run_keeps
    ((s.queue songIndex sectionIndex
      (jumpTo s.ableton.state target)).performAll (some ws) (loopFor target))
    ws [.broadcast (.jumpQueued songIndex sectionIndex
      (jumpTo s.ableton.state target).launchBeat)]
    (jumpTo s.ableton.state target)
  rw [state, later, ableton, commands]
  refine ⟨rfl, ?_⟩
  change s.commands ++ _ ++ further ≠ s.commands
  rw [List.append_assoc, Ne, List.append_right_eq_self,
    List.append_eq_nil_iff]
  exact fun empty => commandsOf_loopFor_ne_nil _ _ empty.1

/-- A jump does what its indices say exactly when none of them wraps. -/
theorem jumpsOnlyInto_iff
    (s : System)
    (ws : WebSocket)
    (songIndex sectionIndex : Int) :
    s.JumpsOnlyInto ws songIndex sectionIndex ↔
      ¬Wraps s.ableton.state songIndex sectionIndex := by
  cases found : sectionAt? s.ableton.state songIndex sectionIndex with
  | none =>
      have refused : ¬(Parser.PointsInto s.ableton.state.songs
          (songIndex, sectionIndex) ∨
          Wraps s.ableton.state songIndex sectionIndex) := by
        rw [← sectionAt?_isSome_cases, found]
        simp
      rw [not_or] at refused
      refine iff_of_true ⟨fun _ => ?_, fun inside => ?_⟩ refused.2
      · simp only [handleJump, found]
        trivial
      · exact absurd inside refused.1
  | some target =>
      obtain ⟨queued, sends⟩ := handleJump_of_sectionAt? ws found
      constructor
      · rintro ⟨refuses, _⟩ ⟨_, negative⟩
        refine sends (refuses ?_).1
        rintro ⟨songNonneg, sectionNonneg, _⟩
        simp only at songNonneg sectionNonneg
        omega
      · intro straight
        have accepted : (sectionAt? s.ableton.state songIndex
            sectionIndex).isSome := by simp [found]
        rcases sectionAt?_isSome_cases.mp accepted with inside | wraps
        · exact ⟨fun outside => absurd inside outside, fun _ => ⟨_, queued⟩⟩
        · exact absurd wraps straight

/-! ### Whole runs -/

/-- Any step keeps the queue fitting unless it queues a wrapped jump. -/
theorem Acts.queueFits
    (acts : s.Acts event after)
    (fits : QueueFits s.ableton.state)
    (straight : ¬s.QueuesWrapped event) :
    QueueFits after.ableton.state := by
  cases acts with
  | asks _ ableton _ _ | orders _ _ ableton _ _ =>
      rw [ableton]
      exact fits
  | stops _ ableton _ _ =>
      rw [ableton]
      change QueueFits { s.ableton.state with
        queuedSongIndex := -1
        queuedSectionIndex := -1
        queuedLaunchBeat := none }
      simp [QueueFits]
  | accepts primary _ found ableton _ _ _ =>
      rw [ableton]
      have nonneg := mt (And.intro primary) straight
      simp only [Wraps, found, Option.isSome_some, true_and] at nonneg
      refine iff_of_true rfl ?_
      simp only [queue]
      omega
  | lands _ ableton _ _ _ =>
      rw [ableton]
      obtain ⟨_, same⟩ := s.land_ableton _ _
      rw [same]
      exact fits
  | @handles event _ ableton _ _ =>
      rw [ableton]
      rcases s.ableton.queued_handle event with kept | cleared
      · exact (queueFits_congr _ _ kept).mpr fits
      · refine (queueFits_congr {} _ cleared).mpr ?_
        simp [QueueFits]

/-- A wrapped jump queues a launch beat with a negative index. -/
theorem not_queueFits_of_queuesWrapped
    (taken : s.exec event = some after)
    (wraps : s.QueuesWrapped event) :
    ¬QueueFits after.ableton.state := by
  unfold QueuesWrapped at wraps
  split at wraps
  · rename_i ws songIndex sectionIndex
    obtain ⟨primary, found, negative⟩ := wraps
    obtain ⟨target, found⟩ := Option.isSome_iff_exists.mp found
    obtain ⟨_, rfl⟩ := handleJump_of_receive taken primary
    obtain ⟨queued, _⟩ := handleJump_of_sectionAt? ws found
    simp only [AppState.queued, Prod.mk.injEq] at queued
    obtain ⟨song, item, beat⟩ := queued
    rw [QueueFits, song, item, beat]
    simp only [Option.isSome_some, true_iff]
    omega
  · exact wraps.elim

/-- A jump does what its indices say, and the queue keeps the sign of its
indices matched with its launch beat, exactly when no index wraps. -/
theorem jumps_iff_not_wraps
    {steps : List (Step System Event)}
    (run : Run exec {} steps s) :
    (∀ (before : System) (ws : WebSocket) (songIndex sectionIndex : Int),
      before.JumpsOnlyInto ws songIndex sectionIndex ↔
        ¬Wraps before.ableton.state songIndex sectionIndex) ∧
    ((∀ step ∈ steps, QueueFits step.after.ableton.state) ↔
      ∀ step ∈ steps, ¬step.before.QueuesWrapped step.label) := by
  refine ⟨jumpsOnlyInto_iff, ?_, ?_⟩
  · intro fits step member wraps
    exact not_queueFits_of_queuesWrapped (run.taken_of_mem member) wraps
      (fits step member)
  · intro straight
    refine run.conditionalInvariant_after
      (fun current => QueueFits current.ableton.state)
      (fun current event => ¬current.QueuesWrapped event)
      (by decide) ?_ straight
    intro current event next reachable fits kept taken
    exact (acts_of_exec (fits_of_reachable reachable) taken).queueFits fits kept

private def queuesWrapped (step : Step System Event) : Bool :=
  match step.label with
  | .receive ws (.jump (some songIndex) (some sectionIndex)) =>
      decide (step.before.manager.primary = some ws ∧
        Wraps step.before.ableton.state songIndex sectionIndex)
  | _ => false

/-- A jump to a section and one to a section that does not exist. -/
theorem jumps_iff_not_wraps_verse :
    ∃ steps s, replay exec {} ([songOfTwo,
        .accept ⟨0⟩ stageTablet "c0"] ++ resumes (.handler ⟨0⟩) 3 ++
        [.receive ⟨0⟩ (.jump (some 0) (some 1))] ++
        resumes (.handler ⟨0⟩) 1 ++
        [.receive ⟨0⟩ (.jump (some 0) (some 2))]) = some (steps, s) ∧
      s.ableton.state.queued = (0, 1, some 4) ∧
      s.JumpsOnlyInto ⟨0⟩ 0 2 ∧
      ∀ step ∈ steps, QueueFits step.after.ableton.state := by
  have runs : (replay exec {} ([songOfTwo,
      .accept ⟨0⟩ stageTablet "c0"] ++ resumes (.handler ⟨0⟩) 3 ++
      [.receive ⟨0⟩ (.jump (some 0) (some 1))] ++
      resumes (.handler ⟨0⟩) 1 ++
      [.receive ⟨0⟩ (.jump (some 0) (some 2))])).map (fun result =>
        decide (result.2.ableton.state.queued = (0, 1, some 4) ∧
          ¬Wraps result.2.ableton.state 0 2) &&
        result.1.all fun step => !queuesWrapped step) = some true := by
    decide +kernel
  obtain ⟨⟨steps, s⟩, replayed, facts⟩ := Option.map_eq_some_iff.mp runs
  rw [Bool.and_eq_true, decide_eq_true_eq, List.all_eq_true] at facts
  obtain ⟨⟨queued, straight⟩, calm⟩ := facts
  have run := run_of_replay replayed
  refine ⟨steps, s, replayed, queued,
    ((jumps_iff_not_wraps run).1 _ _ _ _).mpr straight,
    (jumps_iff_not_wraps run).2.mpr ?_⟩
  intro step member wraps
  have safe := calm step member
  unfold QueuesWrapped at wraps
  split at wraps
  · rename_i label
    simp [queuesWrapped, label, wraps] at safe
  · exact wraps

/-- A jump message without indices goes to the last section of the last
song. -/
theorem not_jumpsOnlyInto_of_missingIndices :
    ∃ steps s, replay exec {} ([songOfTwo,
        .accept ⟨0⟩ stageTablet "c0"] ++ resumes (.handler ⟨0⟩) 3 ++
        [.receive ⟨0⟩ (.jump (some (-1)) (some (-1)))] ++
        resumes (.handler ⟨0⟩) 1) = some (steps, s) ∧
      ¬Parser.PointsInto s.ableton.state.songs (-1, -1) ∧
      ¬s.JumpsOnlyInto ⟨0⟩ (-1) (-1) ∧
      s.ableton.state.queued = (-1, -1, some 4) ∧
      ¬QueueFits s.ableton.state ∧
      (some ⟨0⟩, .cuePointJump 1) ∈ s.commands := by
  have runs : (replay exec {} ([songOfTwo,
      .accept ⟨0⟩ stageTablet "c0"] ++ resumes (.handler ⟨0⟩) 3 ++
      [.receive ⟨0⟩ (.jump (some (-1)) (some (-1)))] ++
      resumes (.handler ⟨0⟩) 1)).map (fun result =>
        decide (Wraps result.2.ableton.state (-1) (-1) ∧
          result.2.ableton.state.queued = (-1, -1, some 4) ∧
          ¬QueueFits result.2.ableton.state ∧
          (some ⟨0⟩, .cuePointJump 1) ∈ result.2.commands)) = some true := by
    decide +kernel
  obtain ⟨⟨steps, s⟩, replayed, facts⟩ := Option.map_eq_some_iff.mp runs
  obtain ⟨wraps, queued, unfit, sent⟩ := of_decide_eq_true facts
  refine ⟨steps, s, replayed, ?_, ?_, queued, unfit, sent⟩
  · rintro ⟨nonneg, _⟩
    simp at nonneg
  · rw [jumpsOnlyInto_iff]
    exact fun straight => straight wraps

end System
end AbletonTracks
