import AbletonTracks.Server.Driving

/-!
# Who drives Ableton

A handler checks once, when it hears a message, that its socket is the
primary.  A jump goes on after its broadcast without a second look, so it may
land although the socket has been superseded meanwhile.  No other order of a
handler comes after a suspension.
-/

namespace AbletonTracks

open Library

namespace System

variable {s after : System} {event : Event}
  {steps : List (Step System Event)}

/-- The commands that a step adds. -/
def newCommands (step : Step System Event) :
    List (Option WebSocket × Command) :=
  step.after.commands.drop step.before.commands.length

/-- Whatever the step lets a socket's handler drive, the socket is the
primary. -/
def DrivesAsPrimary (step : Step System Event) : Prop :=
  ∀ entry ∈ newCommands step, entry.2.Drives →
    ∀ ws ∈ entry.1, step.before.manager.primary = some ws

instance (step : Step System Event) : Decidable (DrivesAsPrimary step) :=
  inferInstanceAs (Decidable (∀ entry ∈ newCommands step, _))

/-- A jump lands although its socket is not the primary any more. -/
def LandsWithoutControl (s : System) (event : Event) : Prop :=
  ∃ landing ∈ s.landsNow? event, s.manager.primary ≠ some landing.1

instance (s : System) (event : Event) :
    Decidable (s.LandsWithoutControl event) :=
  inferInstanceAs (Decidable (∃ _ ∈ s.landsNow? event, _))

theorem newCommands_of_append
    {added : List (Option WebSocket × Command)}
    (commands : after.commands = s.commands ++ added) :
    newCommands ⟨s, event, after⟩ = added := by
  simp [newCommands, commands]

/-- An order that no jump's landing gives comes from the primary. -/
theorem Acts.drivesAsPrimary
    (acts : s.Acts event after)
    (quiet : s.landsNow? event = none) :
    DrivesAsPrimary ⟨s, event, after⟩ := by
  rintro ⟨origin, command⟩ member drives ws own
  obtain rfl : origin = some ws := own
  cases acts with
  | asks harmless _ commands _ =>
      rw [newCommands_of_append commands] at member
      exact absurd drives (harmless _ member)
  | orders primary _ _ commands _ | stops primary _ commands _ =>
      rw [newCommands_of_append commands, List.mem_singleton] at member
      obtain rfl := Option.some.inj (congrArg Prod.fst member)
      exact primary
  | accepts primary _ _ _ commands _ _ =>
      rw [newCommands_of_append commands] at member
      obtain rfl := Option.some.inj (mem_commandsOf.mp member).1
      exact primary
  | lands now _ _ _ _ =>
      rw [quiet] at now
      cases now
  | handles _ commands _ =>
      rw [newCommands_of_append commands] at member
      cases (mem_commandsOf.mp member).1

/-- A step that lands a jump does to Ableton what the landing does. -/
theorem land_of_lands
    {ws : WebSocket} {jump : Jump}
    (fits : s.Fits)
    (taken : s.exec event = some after)
    (lands : s.landsNow? event = some (ws, jump)) :
    after.ableton = (s.land ws jump).ableton ∧
      after.commands = (s.land ws jump).commands := by
  have before := (landing?_of_landsNow? lands).1
  have afterwards := landing?_of_lands fits taken lands
  cases acts_of_exec fits taken with
  | asks _ _ _ same | handles _ _ same =>
      rw [same, before] at afterwards
      cases afterwards
  | orders | stops | accepts => cases lands
  | lands now ableton commands _ _ =>
      obtain ⟨rfl, rfl⟩ := Prod.mk.inj (Option.some.inj (lands.symm.trans now))
      exact ⟨ableton, commands⟩

/-- A jump that lands sends one command, which drives Ableton. -/
theorem newCommands_of_lands
    {ws : WebSocket} {jump : Jump}
    (fits : s.Fits)
    (taken : s.exec event = some after)
    (lands : s.landsNow? event = some (ws, jump)) :
    ∃ command : Command, command.Drives ∧
      newCommands ⟨s, event, after⟩ = [(some ws, command)] := by
  obtain ⟨_, commands⟩ := land_of_lands fits taken lands
  rcases s.land_cases ws jump with ⟨track, clip, _, fires, _⟩ | ⟨_, jumps, _⟩
  · exact ⟨.clipSlotFire track clip, trivial,
      newCommands_of_append (commands.trans fires)⟩
  · exact ⟨.cuePointJump jump.target.cueIndex, trivial,
      newCommands_of_append (commands.trans jumps)⟩

/-- A step lets only the primary drive, unless a jump lands without
control. -/
theorem drivesAsPrimary_iff
    (fits : s.Fits)
    (taken : s.exec event = some after) :
    DrivesAsPrimary ⟨s, event, after⟩ ↔ ¬s.LandsWithoutControl event := by
  cases lands : s.landsNow? event with
  | none =>
      refine iff_of_true ((acts_of_exec fits taken).drivesAsPrimary lands) ?_
      rintro ⟨landing, impossible, _⟩
      rw [lands] at impossible
      cases impossible
  | some landing =>
      obtain ⟨ws, jump⟩ := landing
      obtain ⟨command, drives, new⟩ := newCommands_of_lands fits taken lands
      constructor
      · rintro asPrimary ⟨landing, found, uncontrolled⟩
        obtain rfl := Option.some.inj (lands.symm.trans found)
        refine uncontrolled (asPrimary (some ws, command) ?_ drives ws rfl)
        rw [new]
        exact List.mem_cons_self
      · intro controlled entry member _ socket own
        rw [new, List.mem_singleton] at member
        obtain rfl := member
        obtain rfl := Option.some.inj own
        by_contra uncontrolled
        exact controlled ⟨(ws, jump), lands, uncontrolled⟩

/-- In every run, each order that a socket's handler gives is given while the
socket is the primary, exactly when no jump lands without control. -/
theorem drivesAsPrimary_iff_not_landsWithoutControl
    (run : Run exec {} steps s) :
    (∀ step ∈ steps, DrivesAsPrimary step) ↔
      ∀ step ∈ steps, ¬step.before.LandsWithoutControl step.label := by
  refine forall₂_congr fun step member => ?_
  obtain ⟨past, future, rfl⟩ := List.append_of_mem member
  obtain ⟨pastRun, taken, _⟩ := run.split
  exact drivesAsPrimary_iff (fits_of_reachable pastRun.reachable) taken

/-- A tablet jumps and then reconnects. -/
theorem drivesAsPrimary_iff_not_landsWithoutControl_reconnect :
    ∃ steps s, replay exec {} ([songOfTwo,
        .accept ⟨0⟩ stageTablet "c0"] ++ resumes (.handler ⟨0⟩) 3 ++
        [.receive ⟨0⟩ (.jump (some 0) (some 1))] ++
        resumes (.handler ⟨0⟩) 1 ++
        [.accept ⟨1⟩ stageTablet "c1"]) = some (steps, s) ∧
      s.manager.primary = some ⟨1⟩ ∧
      (some ⟨0⟩, .cuePointJump 1) ∈ s.commands ∧
      ∀ step ∈ steps, DrivesAsPrimary step := by
  have runs : (replay exec {} ([songOfTwo,
      .accept ⟨0⟩ stageTablet "c0"] ++ resumes (.handler ⟨0⟩) 3 ++
      [.receive ⟨0⟩ (.jump (some 0) (some 1))] ++
      resumes (.handler ⟨0⟩) 1 ++
      [.accept ⟨1⟩ stageTablet "c1"])).map (fun result =>
        decide (result.2.manager.primary = some ⟨1⟩ ∧
          (some ⟨0⟩, .cuePointJump 1) ∈ result.2.commands ∧
          ∀ step ∈ result.1,
            ¬step.before.LandsWithoutControl step.label)) = some true := by
    decide +kernel
  obtain ⟨⟨steps, s⟩, replayed, facts⟩ := Option.map_eq_some_iff.mp runs
  obtain ⟨primary, sent, controlled⟩ := of_decide_eq_true facts
  exact ⟨steps, s, replayed, primary, sent,
    (drivesAsPrimary_iff_not_landsWithoutControl
      (run_of_replay replayed)).mpr controlled⟩

/-- A tablet jumps, reconnects during the broadcast, and its old socket's jump
lands. -/
theorem not_drivesAsPrimary_of_superseded :
    ∃ steps s, replay exec {} ([songOfTwo,
        .accept ⟨0⟩ stageTablet "c0"] ++ resumes (.handler ⟨0⟩) 3 ++
        [.receive ⟨0⟩ (.jump (some 0) (some 1)),
          .accept ⟨1⟩ stageTablet "c1"] ++
        resumes (.handler ⟨0⟩) 1) = some (steps, s) ∧
      s.manager.primary = some ⟨1⟩ ∧
      (∃ step ∈ steps, (some ⟨0⟩, .cuePointJump 1) ∈ newCommands step ∧
        step.before.manager.primary = some ⟨1⟩) ∧
      ¬∀ step ∈ steps, DrivesAsPrimary step := by
  have runs : (replay exec {} ([songOfTwo,
      .accept ⟨0⟩ stageTablet "c0"] ++ resumes (.handler ⟨0⟩) 3 ++
      [.receive ⟨0⟩ (.jump (some 0) (some 1)),
        .accept ⟨1⟩ stageTablet "c1"] ++
      resumes (.handler ⟨0⟩) 1)).map (fun result =>
        decide (result.2.manager.primary = some ⟨1⟩ ∧
          (∃ step ∈ result.1,
            (some ⟨0⟩, .cuePointJump 1) ∈ newCommands step ∧
            step.before.manager.primary = some ⟨1⟩) ∧
          ¬∀ step ∈ result.1, DrivesAsPrimary step)) = some true := by
    decide +kernel
  obtain ⟨⟨steps, s⟩, replayed, facts⟩ := Option.map_eq_some_iff.mp runs
  exact ⟨steps, s, replayed, of_decide_eq_true facts⟩

end System
end AbletonTracks
