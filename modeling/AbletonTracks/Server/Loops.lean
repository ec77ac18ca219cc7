import AbletonTracks.Library.Region
import AbletonTracks.Server.Landing

/-!
# The Arrangement Loop

Only an accepted jump sends loop commands: it binds the loop to a `Loop`
section that has a length, and releases it for any other section.  So the loop
is a region whose requests are the accepted jumps, and the last of them
decides it.  Between the commands of a jump the loop may be a mixture of two
sections.
-/

namespace AbletonTracks

open Library

/-- The loop message that a command is. -/
def Command.loop? : Command → Option (RegionMessage ℚ ℚ)
  | .setLoopStart beat => some (.start beat)
  | .setLoopLength beats => some (.extent beats)
  | .setLoop on => some (.switch on)
  | _ => none

theorem Command.loop?_of_not_drives
    {command : Command}
    (harmless : ¬command.Drives) :
    command.loop? = none := by
  cases command <;> first | rfl | exact absurd trivial harmless

namespace System

variable {s after : System} {event : Event}
  {steps : List (Step System Event)}

/-- The loop messages among commands. -/
def loopMessages (commands : List (Option WebSocket × Command)) :
    List (RegionMessage ℚ ℚ) :=
  commands.filterMap fun entry => entry.2.loop?

/-- The loop that a jump to a section asks for. -/
def loopRequest (target : Section) : Option (ℚ × ℚ) :=
  if target.isLoop then
    (target.length.filter fun length => length ≠ 0).map fun length =>
      (target.position, length)
  else none

theorem loopMessages_append
    (early late : List (Option WebSocket × Command)) :
    loopMessages (early ++ late) = loopMessages early ++ loopMessages late :=
  List.filterMap_append

theorem loopMessages_eq_nil
    {commands : List (Option WebSocket × Command)}
    (silent : ∀ entry ∈ commands, entry.2.loop? = none) :
    loopMessages commands = [] :=
  List.filterMap_eq_nil_iff.mpr silent

/-- A jump sends the messages of its request. -/
theorem loopMessages_loopFor
    (origin : Option WebSocket)
    (target : Section) :
    loopMessages (commandsOf origin (loopFor target)) =
      Region.messages (loopRequest target) := by
  unfold loopFor loopRequest
  cases target.isLoop with
  | false => rfl
  | true =>
      cases target.length with
      | none => rfl
      | some length =>
          by_cases empty : length = 0
          · simp [empty, commandsOf, AbletonBridge.disableLoop,
              Effect.command?, loopMessages, Command.loop?, Option.filter_some,
              Region.messages]
          · simp [empty, commandsOf, AbletonBridge.setLoopRegion,
              Effect.command?, loopMessages, Command.loop?, Option.filter_some,
              Region.messages]

/-- A jump binds the loop exactly to a `Loop` section with a length. -/
theorem loopRequest_eq_some
    {target : Section} {start length : ℚ} :
    loopRequest target = some (start, length) ↔
      target.isLoop = true ∧ target.position = start ∧
        target.length = some length ∧ length ≠ 0 := by
  unfold loopRequest
  cases target.isLoop with
  | false => simp
  | true =>
      cases target.length with
      | none => simp
      | some measured =>
          simp only [if_true, Option.map_eq_some_iff,
            Option.filter_eq_some_iff, Option.some.injEq, Prod.mk.injEq,
            decide_eq_true_eq, true_and]
          constructor
          · rintro ⟨_, ⟨rfl, positive⟩, rfl, rfl⟩
            exact ⟨rfl, rfl, positive⟩
          · rintro ⟨rfl, rfl, positive⟩
            exact ⟨_, ⟨rfl, positive⟩, rfl, rfl⟩

/-! ## The accepted jumps -/

/-- The section of the jump that a step accepts. -/
def acceptedTarget? (step : Step System Event) : Option Section :=
  (tap? step.label).bind fun tap =>
    if step.before.manager.primary = some tap.socket then
      sectionAt? step.before.ableton.state tap.songIndex tap.sectionIndex
    else none

/-- The sections of the accepted jumps, in order. -/
def acceptedTargets (steps : List (Step System Event)) : List Section :=
  steps.filterMap acceptedTarget?

theorem acceptedTargets_snoc
    (past : List (Step System Event))
    (step : Step System Event) :
    acceptedTargets (past ++ [step]) =
      acceptedTargets past ++ (acceptedTarget? step).toList := by
  cases accepted : acceptedTarget? step <;> simp [acceptedTargets, accepted]

theorem acceptedTarget?_eq_some {target : Section} :
    acceptedTarget? ⟨s, event, after⟩ = some target ↔
      ∃ tap : Tap, event = .receive tap.socket (.jump (some tap.songIndex)
          (some tap.sectionIndex)) ∧
        s.manager.primary = some tap.socket ∧
        sectionAt? s.ableton.state tap.songIndex tap.sectionIndex =
          some target := by
  simp [acceptedTarget?, Option.bind_eq_some_iff, tap?_eq_some]

/-! ## What a run sends -/

/-- No event of the bridge concerns the loop. -/
theorem loop?_of_handle
    {bridge : AbletonBridge} {event : AbletonBridge.Event}
    {command : Command}
    (member : .send command ∈ (bridge.handle event).2) :
    command.loop? = none := by
  have handled := bridge.handles event
  generalize bridge.handle event = result at handled member
  cases handled with
  | cues =>
      simp only [AbletonBridge.handleCuePoints] at member
      split at member
      · simp at member
      · simp at member
  | position =>
      rcases AbletonBridge.handleBeat_sends member with rfl | ⟨beat, rfl⟩
      · rfl
      · rfl
  | other _ _ _ drives => exact Command.loop?_of_not_drives (drives _ member)

/-- A step that accepts no jump sends no loop command. -/
theorem Acts.loopMessages_eq_nil
    (acts : s.Acts event after)
    (noJump : acceptedTarget? ⟨s, event, after⟩ = none) :
    loopMessages (newCommands ⟨s, event, after⟩) = [] := by
  apply System.loopMessages_eq_nil
  intro entry member
  cases acts with
  | asks harmless _ commands _ =>
      rw [newCommands_of_append commands] at member
      exact Command.loop?_of_not_drives (harmless entry member)
  | orders _ command _ commands _ =>
      rw [newCommands_of_append commands, List.mem_singleton] at member
      obtain rfl := member
      rcases command with rfl | ⟨track, muted, rfl⟩
      · rfl
      · rfl
  | stops _ _ commands _ =>
      rw [newCommands_of_append commands, List.mem_singleton] at member
      obtain rfl := member
      rfl
  | accepts primary _ found _ _ _ _ =>
      rw [acceptedTarget?_eq_some.mpr ⟨⟨_, _, _⟩, rfl, primary, found⟩]
        at noJump
      cases noJump
  | @lands _ ws jump _ now _ commands _ _ =>
      rcases s.land_cases ws jump with ⟨track, clip, _, fires, _⟩ |
        ⟨_, jumps, _⟩
      · rw [newCommands_of_append (commands.trans fires),
          List.mem_singleton] at member
        obtain rfl := member
        rfl
      · rw [newCommands_of_append (commands.trans jumps),
          List.mem_singleton] at member
        obtain rfl := member
        rfl
  | handles _ commands _ =>
      rw [newCommands_of_append commands] at member
      exact loop?_of_handle (mem_commandsOf.mp member).2

/-- A step sends the loop commands of the jump that it accepts. -/
theorem loopMessages_newCommands
    (fits : s.Fits)
    (taken : s.exec event = some after) :
    loopMessages (newCommands ⟨s, event, after⟩) =
      Region.stream ((acceptedTarget? ⟨s, event, after⟩).toList.map
        loopRequest) := by
  cases accepted : acceptedTarget? ⟨s, event, after⟩ with
  | none => exact (acts_of_exec fits taken).loopMessages_eq_nil accepted
  | some target =>
      obtain ⟨tap, rfl, primary, found⟩ :=
        acceptedTarget?_eq_some.mp accepted
      obtain ⟨_, commands, _⟩ := begins_of_receive fits taken primary found
      rw [newCommands_of_append commands, loopMessages_loopFor]
      simp [Region.stream]

theorem Acts.commands_eq
    (acts : s.Acts event after) :
    after.commands = s.commands ++ newCommands ⟨s, event, after⟩ := by
  cases acts with
  | asks _ _ commands _ | orders _ _ _ commands _ | stops _ _ commands _
  | accepts _ _ _ _ commands _ _ | handles _ commands _ =>
      rw [newCommands_of_append commands, commands]
  | lands _ _ commands _ _ =>
      rcases s.land_cases _ _ with ⟨_, _, _, sends, _⟩ | ⟨_, sends, _⟩
      · rw [newCommands_of_append (commands.trans sends), commands, sends]
      · rw [newCommands_of_append (commands.trans sends), commands, sends]

/-- A run sends the loop commands of the jumps that it accepts. -/
theorem loopMessages_of_run
    (run : Run exec {} steps s) :
    loopMessages s.commands =
      Region.stream ((acceptedTargets steps).map loopRequest) := by
  refine run.historyInvariant
    (fun past current => loopMessages current.commands =
      Region.stream ((acceptedTargets past).map loopRequest)) rfl ?_
  intro past current event next pastRun sent taken
  have fits := fits_of_reachable pastRun.reachable
  rw [(acts_of_exec fits taken).commands_eq, loopMessages_append, sent,
    loopMessages_newCommands fits taken, acceptedTargets_snoc,
    List.map_append, Region.stream_append]

/-! ## What a jump leaves looped -/

/-- A position lies in the loop. -/
def InLoopRegion (loop : Region ℚ ℚ) (position : ℚ) : Prop :=
  loop.start ≤ position ∧ position < loop.start + loop.extent

instance (loop : Region ℚ ℚ) (position : ℚ) :
    Decidable (InLoopRegion loop position) :=
  inferInstanceAs (Decidable (_ ∧ _))

/-- The loop of Ableton after a run, whatever it was before. -/
def loopAfter (live : Region ℚ ℚ) (s : System) : Region ℚ ℚ :=
  live.after (loopMessages s.commands)

/-- The primary jumps to a section, and until the end of the run no further
jump is accepted.  Then the loop is on exactly if the section is a `Loop`
section of positive length, and its region is where playback is in that very
section. -/
theorem loopAfter_jump
    {past rest : List (Step System Event)}
    {tap : Step System Event}
    {ws : WebSocket} {songIndex sectionIndex : Int} {target : Section}
    (run : Run exec {} (past ++ tap :: rest) s)
    (taps : tap.label = .receive ws (.jump (some songIndex)
      (some sectionIndex)))
    (primary : tap.before.manager.primary = some ws)
    (listed : ((songIndex, sectionIndex), target) ∈
      Parser.entries tap.before.ableton.state.songs)
    (last : acceptedTargets rest = [])
    (live : Region ℚ ℚ) :
    ((loopAfter live s).on = true ↔
      target.isLoop = true ∧ ∃ length ∈ target.length, 0 < length) ∧
    ((loopAfter live s).on = true →
      InLoopRegion (loopAfter live s) (loopAfter live s).start ∧
      ∀ position, InLoopRegion (loopAfter live s) position ↔
        Parser.findCurrentIndices tap.before.ableton.state.songs position =
          (songIndex, sectionIndex)) := by
  have accepted : acceptedTarget? tap = some target := by
    obtain ⟨before, label, next⟩ := tap
    exact acceptedTarget?_eq_some.mpr ⟨⟨ws, songIndex, sectionIndex⟩, taps,
      primary, sectionAt?_of_mem_entries listed⟩
  have targets : acceptedTargets (past ++ tap :: rest) =
      acceptedTargets past ++ [target] := by
    simp only [acceptedTargets] at last ⊢
    rw [List.filterMap_append, List.filterMap_cons_some accepted, last]
  obtain ⟨pastRun, _, _⟩ := run.split
  obtain ⟨cues, songs⟩ := (indicesFit_of_reachable pastRun.reachable).parsed
  rw [songs] at listed ⊢
  rw [loopAfter, loopMessages_of_run run, targets, List.map_append,
    List.map_singleton]
  cases requested : loopRequest target with
  | none =>
      have off := Region.off_after_release live
        ((acceptedTargets past).map loopRequest)
      rw [off]
      refine ⟨iff_of_false (by simp) ?_, by simp⟩
      rintro ⟨isLoop, length, measured, positive⟩
      rw [loopRequest_eq_some.mpr ⟨isLoop, rfl, measured, positive.ne'⟩]
        at requested
      cases requested
  | some bound =>
      obtain ⟨start, length⟩ := bound
      obtain ⟨isLoop, rfl, measured, nonzero⟩ :=
        loopRequest_eq_some.mp requested
      have positive : 0 < length :=
        lt_of_le_of_ne (Parser.length_nonneg listed measured) nonzero.symm
      rw [Region.after_bind]
      refine ⟨iff_of_true rfl ⟨isLoop, length, measured, positive⟩,
        fun _ => ⟨?_, fun position => ?_⟩⟩
      · simp [InLoopRegion, positive]
      · rw [Parser.findCurrentIndices_eq_iff listed]
        simp [InLoopRegion, Section.Spans, measured]

/-- Ableton replies with a song that has a loop between two others. -/
def songWithLoop : Event :=
  .ableton (.datagram 0 AbletonBridge.cuePointsAddress
    (AbletonBridge.oneCueReply "== A ==" 0 ++
      AbletonBridge.oneCueReply "Loop" 8 ++
      AbletonBridge.oneCueReply "Outro" 16))

private def jumpsToLoop (tap : Step System Event) : Bool :=
  decide (tap.before.manager.primary = some ⟨0⟩ ∧
    (Parser.entries tap.before.ableton.state.songs)[1]? =
      some ((0, 1), ⟨"Loop", 8, 1, true, some 8⟩))

/-- A jump to the loop. -/
theorem loopAfter_jump_loop :
    ∃ steps s, replay exec {} ([songWithLoop,
        .accept ⟨0⟩ stageTablet "c0"] ++ resumes (.handler ⟨0⟩) 3 ++
        [.receive ⟨0⟩ (.jump (some 0) (some 1)),
          .resume (.handler ⟨0⟩) false]) = some (steps, s) ∧
      ∀ live, (loopAfter live s).on = true := by
  have runs : (replay exec {} ([songWithLoop,
      .accept ⟨0⟩ stageTablet "c0"] ++ resumes (.handler ⟨0⟩) 3 ++
      [.receive ⟨0⟩ (.jump (some 0) (some 1)),
        .resume (.handler ⟨0⟩) false])).map (fun result =>
        (lastTwo? result.1).any fun last => jumpsToLoop last.1) =
      some true := by
    decide +kernel
  obtain ⟨⟨steps, s⟩, replayed, facts⟩ := Option.map_eq_some_iff.mp runs
  have run := run_of_replay replayed
  obtain ⟨past, tap, landing, rfl, taps, lands, last⟩ :=
    lastTwo_of_replay replayed
  refine ⟨_, s, replayed, fun live => ?_⟩
  simp only [last, Option.any_some, jumpsToLoop, decide_eq_true_eq] at facts
  have noFurther : acceptedTargets [landing] = [] := by
    simp [acceptedTargets, acceptedTarget?, lands, tap?]
  have listed := List.mem_of_getElem? facts.2
  have loops := loopAfter_jump run taps facts.1 listed noFurther live
  exact loops.1.mpr ⟨rfl, 8, rfl, by norm_num⟩

/-! ## What is looped in between -/

/-- Some of the sections is a `Loop` section with this start and length. -/
def OfOneSection (targets : List Section) (start length : ℚ) : Prop :=
  ∃ target ∈ targets, target.isLoop = true ∧ target.position = start ∧
    target.length = some length

instance (targets : List Section) (start length : ℚ) :
    Decidable (OfOneSection targets start length) :=
  inferInstanceAs (Decidable (∃ target ∈ targets, _))

/-- After each loop command of a step, the loop is off or that of one section
that has been jumped to.  The stream starts with the release of `start`. -/
def LoopsOneSection
    (live : Region ℚ ℚ)
    (past : List (Step System Event))
    (step : Step System Event) : Prop :=
  ∀ part, part <+: loopMessages (newCommands step) →
    (live.after (loopMessages (commandsOf none AbletonBridge.disableLoop) ++
      loopMessages step.before.commands ++ part)).Within
      (OfOneSection (acceptedTargets (past ++ [step])))

/-- A jump to a `Loop` section is accepted while the loop is bound to another
one, and no section jumped to starts at the one and is as long as the
other. -/
def MixesLoop (past : List (Step System Event)) (step : Step System Event) :
    Prop :=
  ∃ bound ∈ (acceptedTargets past).getLast?.bind loopRequest,
    ∃ next ∈ (acceptedTarget? step).bind loopRequest,
      ¬OfOneSection (acceptedTargets (past ++ [step])) next.1 bound.2

instance (past : List (Step System Event)) (step : Step System Event) :
    Decidable (MixesLoop past step) :=
  inferInstanceAs (Decidable
    (∃ bound ∈ (acceptedTargets past).getLast?.bind loopRequest,
      ∃ next ∈ (acceptedTarget? step).bind loopRequest, _))

theorem ofOneSection_of_mem
    {targets : List Section} {bound : ℚ × ℚ}
    (member : some bound ∈ targets.map loopRequest) :
    OfOneSection targets bound.1 bound.2 := by
  obtain ⟨target, listed, requests⟩ := List.mem_map.mp member
  obtain ⟨isLoop, start, length, _⟩ := loopRequest_eq_some.mp requests
  exact ⟨target, listed, isLoop, start, length⟩

theorem loopsOneSection_iff
    {past : List (Step System Event)}
    (run : Run exec {} past s)
    (taken : s.exec event = some after)
    (live : Region ℚ ℚ) :
    LoopsOneSection live past ⟨s, event, after⟩ ↔
      ¬MixesLoop past ⟨s, event, after⟩ := by
  have fits := fits_of_reachable run.reachable
  rw [LoopsOneSection, MixesLoop, acceptedTargets_snoc,
    loopMessages_newCommands fits taken]
  simp only [Region.after_append, loopMessages_of_run run]
  have off : (live.after (loopMessages (commandsOf none
      AbletonBridge.disableLoop))).on = false := rfl
  generalize live.after (loopMessages (commandsOf none
    AbletonBridge.disableLoop)) = start at off ⊢
  have earlier : ∀ added bound,
      some bound ∈ (acceptedTargets past).map loopRequest →
      OfOneSection (acceptedTargets past ++ added) bound.1 bound.2 := by
    intro added bound member
    refine ofOneSection_of_mem ?_
    rw [List.map_append]
    exact List.mem_append_left _ member
  cases accepted : acceptedTarget? ⟨s, event, after⟩ with
  | none =>
      refine iff_of_true ?_ (by simp)
      intro part nothing
      obtain rfl := List.prefix_nil.mp nothing
      exact Region.within_after_stream off (earlier _)
  | some target =>
      have own : ∀ next ∈ loopRequest target,
          OfOneSection (acceptedTargets past ++ [target]) next.1 next.2 := by
        intro next requests
        refine ofOneSection_of_mem ?_
        simp [Option.mem_def.mp requests]
      have mixes := Region.unmixed_after_stream_iff off (earlier [target]) own
      have requests : ((acceptedTargets past).map loopRequest).getLast?.join =
          (acceptedTargets past).getLast?.bind loopRequest := by
        rw [List.getLast?_map]
        cases (acceptedTargets past).getLast? with
        | none => rfl
        | some previous => rfl
      rw [Region.Mixes, requests] at mixes
      simpa [Region.Unmixed, Region.stream] using mixes

/-- In every run the loop is always that of one section, exactly when no jump
mixes the loop of the one before with its own. -/
theorem loopsOneSection_iff_not_mixesLoop
    (run : Run exec {} steps s)
    (live : Region ℚ ℚ) :
    (∀ past step future, steps = past ++ step :: future →
      LoopsOneSection live past step) ↔
    ∀ past step future, steps = past ++ step :: future →
      ¬MixesLoop past step := by
  refine forall₂_congr fun past step => forall₂_congr fun future whole => ?_
  obtain rfl := whole
  obtain ⟨pastRun, taken, _⟩ := run.split
  exact loopsOneSection_iff pastRun taken live

private def keepsLoops (past : List (Step System Event))
    (step : Step System Event) : Bool :=
  decide (¬MixesLoop past step)

/-- A jump to the loop, one to the end, and one to the loop again. -/
theorem loopsOneSection_iff_not_mixesLoop_return :
    ∃ steps s, replay exec {} ([songWithLoop,
        .accept ⟨0⟩ stageTablet "c0"] ++ resumes (.handler ⟨0⟩) 3 ++
        [.receive ⟨0⟩ (.jump (some 0) (some 1)),
          .resume (.handler ⟨0⟩) false,
          .receive ⟨0⟩ (.jump (some 0) (some 2)),
          .resume (.handler ⟨0⟩) false,
          .receive ⟨0⟩ (.jump (some 0) (some 1))]) = some (steps, s) ∧
      (loopMessages s.commands).length = 7 ∧
      ∀ past step future, steps = past ++ step :: future →
        LoopsOneSection ⟨false, 0, 0⟩ past step := by
  have runs : (replay exec {} ([songWithLoop,
      .accept ⟨0⟩ stageTablet "c0"] ++ resumes (.handler ⟨0⟩) 3 ++
      [.receive ⟨0⟩ (.jump (some 0) (some 1)),
        .resume (.handler ⟨0⟩) false,
        .receive ⟨0⟩ (.jump (some 0) (some 2)),
        .resume (.handler ⟨0⟩) false,
        .receive ⟨0⟩ (.jump (some 0) (some 1))])).map (fun result =>
        decide ((loopMessages result.2.commands).length = 7) &&
          everySplit keepsLoops [] result.1) = some true := by
    decide +kernel
  obtain ⟨⟨steps, s⟩, replayed, facts⟩ := Option.map_eq_some_iff.mp runs
  rw [Bool.and_eq_true, decide_eq_true_eq] at facts
  refine ⟨steps, s, replayed, facts.1,
    (loopsOneSection_iff_not_mixesLoop (run_of_replay replayed) _).mpr ?_⟩
  intro past step future whole
  exact of_decide_eq_true (of_everySplit facts.2 past step future whole)

/-- A song with two loops of different lengths. -/
private def songWithLoops : Event :=
  .ableton (.datagram 0 AbletonBridge.cuePointsAddress
    (AbletonBridge.oneCueReply "== A ==" 0 ++
      AbletonBridge.oneCueReply "Loop" 8 ++
      AbletonBridge.oneCueReply "Loop" 16 ++
      AbletonBridge.oneCueReply "Outro" 20))

/-- From one loop straight to the other: the new start with the old length. -/
theorem not_loopsOneSection_of_nextLoop :
    ∃ steps s after, replay exec {} ([songWithLoops,
        .accept ⟨0⟩ stageTablet "c0"] ++ resumes (.handler ⟨0⟩) 3 ++
        [.receive ⟨0⟩ (.jump (some 0) (some 1))] ++
        resumes (.handler ⟨0⟩) 1) = some (steps, s) ∧
      s.exec (.receive ⟨0⟩ (.jump (some 0) (some 2))) = some after ∧
      (Region.after ⟨false, 0, 0⟩ (loopMessages (commandsOf none
        AbletonBridge.disableLoop) ++ loopMessages s.commands ++
        [.start 16]) = ⟨true, 16, 8⟩) ∧
      ¬LoopsOneSection ⟨false, 0, 0⟩ steps
        ⟨s, .receive ⟨0⟩ (.jump (some 0) (some 2)), after⟩ := by
  have runs : (replay exec {} ([songWithLoops,
      .accept ⟨0⟩ stageTablet "c0"] ++ resumes (.handler ⟨0⟩) 3 ++
      [.receive ⟨0⟩ (.jump (some 0) (some 1))] ++
      resumes (.handler ⟨0⟩) 1)).map (fun result => decide (
        Region.after ⟨false, 0, 0⟩ (loopMessages (commandsOf none
          AbletonBridge.disableLoop) ++ loopMessages result.2.commands ++
          [.start 16]) = ⟨true, 16, 8⟩ ∧
        (result.2.exec (.receive ⟨0⟩ (.jump (some 0) (some 2)))).map
          (fun after => decide (
            [.start 16] <+: loopMessages (newCommands
              ⟨result.2, .receive ⟨0⟩ (.jump (some 0) (some 2)), after⟩) ∧
            ¬OfOneSection (acceptedTargets (result.1 ++
              [⟨result.2, .receive ⟨0⟩ (.jump (some 0) (some 2)), after⟩]))
              16 8)) = some true)) = some true := by
    decide +kernel
  obtain ⟨⟨steps, s⟩, replayed, facts⟩ := Option.map_eq_some_iff.mp runs
  obtain ⟨mixed, jumps⟩ := of_decide_eq_true facts
  obtain ⟨after, taken, facts⟩ := Option.map_eq_some_iff.mp jumps
  obtain ⟨starts, ofNone⟩ := of_decide_eq_true facts
  refine ⟨steps, s, after, replayed, taken, mixed, ?_⟩
  intro loops
  have within := loops [.start 16] starts
  rw [mixed] at within
  exact ofNone (within rfl)

end System
end AbletonTracks
