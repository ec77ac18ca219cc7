import AbletonTracks.Bridge.Place

/-!
# Telling the devices the current section

`_handle_beat` drops a position between two beats unless the indices differ
from `_last_section`, the ones of the position report before.  A reply with
new cue points changes the indices too, and does not store them there.  So a
position that leads back to the indices stored last changes the section
without a broadcast; nothing else does.
-/

namespace AbletonTracks

open Library

namespace AbletonBridge

variable {bridge after : AbletonBridge} {event : Event}
  {steps : List (Step AbletonBridge Event)}

/-- Some broadcast among the effects carries the current indices. -/
def Tells (effects : List Effect) : Prop :=
  .positionUpdate ∈ effects ∨ .stateChange ∈ effects

instance (effects : List Effect) : Decidable (Tells effects) :=
  inferInstanceAs (Decidable (_ ∨ _))

/-- The position that a message between two beats reports. -/
def reportedBetweenBeats? : Event → Option ℚ
  | .datagram _ address args =>
      if address = positionAddress false then
        args.head?.bind OscArgument.number?
      else none
  | _ => none

/-- A position between two beats leads back to the indices of the position
report before, after other indices have come up in between. -/
def ReturnsUnseen (bridge : AbletonBridge) (event : Event) : Prop :=
  ∃ position ∈ reportedBetweenBeats? event,
    Parser.findCurrentIndices bridge.state.songs position =
      bridge.lastSection ∧
    bridge.state.indices ≠ bridge.lastSection

instance (bridge : AbletonBridge) (event : Event) :
    Decidable (bridge.ReturnsUnseen event) :=
  inferInstanceAs (Decidable (∃ _ ∈ reportedBetweenBeats? event, _))

/-- A change of the indices comes with a broadcast. -/
def TellsChange (bridge : AbletonBridge) (event : Event) : Prop :=
  (bridge.handle event).1.state.indices ≠ bridge.state.indices →
    Tells (bridge.handle event).2

instance (bridge : AbletonBridge) (event : Event) :
    Decidable (bridge.TellsChange event) :=
  inferInstanceAs (Decidable (_ → _))

/-- The indices last handed to a broadcast. -/
def toldIndices (steps : List (Step AbletonBridge Event)) : Int × Int :=
  steps.foldl (fun told step =>
    if Tells (step.before.handle step.label).2 then step.after.state.indices
    else told) (-1, -1)

theorem toldIndices_snoc
    (past : List (Step AbletonBridge Event))
    (step : Step AbletonBridge Event) :
    toldIndices (past ++ [step]) =
      if Tells (step.before.handle step.label).2 then step.after.state.indices
      else toldIndices past := by
  simp [toldIndices]

/-! ## One event -/

@[simp] theorem clearLandedJump_indices (state : AppState) :
    (clearLandedJump state).indices = state.indices := by
  unfold clearLandedJump
  split <;> rfl

@[simp] theorem fireRetarget_lastSection (bridge : AbletonBridge) :
    bridge.fireRetarget.1.lastSection = bridge.lastSection := by
  obtain ⟨_, fired⟩ := bridge.fireRetarget_fst
  rw [fired]

/-- A new list of cue points is broadcast; the list as before changes
nothing. -/
theorem handleCuePoints_tells
    (bridge : AbletonBridge)
    (args : List OscArgument) :
    (bridge.handleCuePoints args).1 = bridge ∨
      Tells (bridge.handleCuePoints args).2 := by
  simp only [handleCuePoints]
  split
  · exact Or.inl rfl
  · exact Or.inr (Or.inr List.mem_cons_self)

/-- Where a position report leads. -/
theorem handleBeat_indices
    (bridge : AbletonBridge)
    (isBeatBoundary : Bool)
    {first : OscArgument}
    (rest : List OscArgument)
    {position : ℚ}
    (number : first.number? = some position) :
    (bridge.handleBeat isBeatBoundary (first :: rest)).1.state.indices =
      Parser.findCurrentIndices bridge.state.songs position := by
  simp only [handleBeat, number, clearLandedJump_indices]
  simp [updateIndices, AppState.indices, storePosition]

theorem fireRetarget_sends
    {effect : Effect}
    (member : effect ∈ bridge.fireRetarget.2) :
    ∃ command, effect = .send command := by
  unfold fireRetarget at member
  split at member
  · cases member
  · split at member
    · exact ⟨_, List.mem_singleton.mp member⟩
    · cases member

/-- Commands tell the devices nothing. -/
theorem tells_append_iff
    {early late : List Effect}
    (sends : ∀ effect ∈ early, ∃ command, effect = .send command) :
    Tells (early ++ late) ↔ Tells late := by
  constructor
  · rintro (told | told)
    · rcases List.mem_append.mp told with sent | told
      · obtain ⟨_, impossible⟩ := sends _ sent
        cases impossible
      · exact Or.inl told
    · rcases List.mem_append.mp told with sent | told
      · obtain ⟨_, impossible⟩ := sends _ sent
        cases impossible
      · exact Or.inr told
  · exact Or.imp (List.mem_append_right _) (List.mem_append_right _)

/-- A position report is broadcast at a beat, and when the section differs
from the one of the report before. -/
theorem handleBeat_tells_iff
    (bridge : AbletonBridge)
    (isBeatBoundary : Bool)
    {first : OscArgument}
    (rest : List OscArgument)
    {position : ℚ}
    (number : first.number? = some position) :
    Tells (bridge.handleBeat isBeatBoundary (first :: rest)).2 ↔
      Parser.findCurrentIndices bridge.state.songs position ≠
        bridge.lastSection ∨ isBeatBoundary = true := by
  have indices :=
    bridge.handleBeat_indices isBeatBoundary rest number
  have stored : (bridge.storePosition position).fireRetarget.1.lastSection =
      bridge.lastSection := fireRetarget_lastSection _
  have sends : ∀ effect, effect ∈
      (if isBeatBoundary then [Effect.send .getTempo] else []) ++
        (bridge.storePosition position).fireRetarget.2 →
      ∃ command, effect = .send command := by
    intro effect member
    rcases List.mem_append.mp member with asks | fires
    · split at asks
      · exact ⟨_, List.mem_singleton.mp asks⟩
      · cases asks
    · exact fireRetarget_sends fires
  rw [← indices]
  simp only [handleBeat, number]
  rw [tells_append_iff sends, stored]
  simp only [AppState.indices]
  split
  · rename_i tells
    exact iff_of_true (Or.inl List.mem_cons_self) tells
  · rename_i silent
    refine iff_of_false ?_ silent
    simp [Tells]

/-- A report without a number changes nothing. -/
theorem handleBeat_of_none
    (bridge : AbletonBridge)
    (isBeatBoundary : Bool)
    {args : List OscArgument}
    (noNumber : args.head?.bind OscArgument.number? = none) :
    (bridge.handleBeat isBeatBoundary args).1 = bridge := by
  cases args with
  | nil => rfl
  | cons first rest =>
      have raises : first.number? = none := noNumber
      simp only [handleBeat, raises]

/-- An event tells the change that it makes, unless it leads back unseen. -/
theorem tellsChange_iff (bridge : AbletonBridge) (event : Event) :
    bridge.TellsChange event ↔ ¬bridge.ReturnsUnseen event := by
  have handled := bridge.handles event
  unfold TellsChange
  generalize bridge.handle event = result at handled
  cases handled with
  | @cues now args =>
      refine iff_of_true ?_ ?_
      · intro changed
        rcases handleCuePoints_tells { bridge with lastReceived := now } args
          with same | tells
        · rw [same] at changed
          exact absurd rfl changed
        · exact tells
      · rintro ⟨position, reported, _⟩
        simp [reportedBetweenBeats?, cuePointsAddress, positionAddress]
          at reported
  | @position now isBeatBoundary args =>
      cases number : args.head?.bind OscArgument.number? with
      | none =>
          rw [handleBeat_of_none _ _ number]
          refine iff_of_true (fun changed => absurd rfl changed) ?_
          rintro ⟨position, reported, _⟩
          simp [reportedBetweenBeats?, number] at reported
      | some position =>
          obtain ⟨first, rest, rfl⟩ : ∃ first rest, args = first :: rest := by
            cases args with
            | nil => cases number
            | cons first rest => exact ⟨first, rest, rfl⟩
          rw [handleBeat_indices _ _ rest number,
            handleBeat_tells_iff _ _ rest number]
          cases isBeatBoundary with
          | true =>
              refine iff_of_true (fun _ => Or.inr rfl) ?_
              rintro ⟨other, reported, _⟩
              simp [reportedBetweenBeats?, positionAddress] at reported
          | false =>
              have reports : reportedBetweenBeats? (.datagram now
                  (positionAddress false) (first :: rest)) =
                    some position := by
                simpa [reportedBetweenBeats?] using number
              constructor
              · rintro tells ⟨_, reported, back, seen⟩
                obtain rfl := Option.some.inj (reports.symm.trans reported)
                have changed : Parser.findCurrentIndices bridge.state.songs
                    position ≠ bridge.state.indices := by
                  rw [back]
                  exact Ne.symm seen
                rcases tells changed with different | impossible
                · exact different back
                · cases impossible
              · intro kept changed
                refine Or.inl fun back => kept ⟨position, reports, back, ?_⟩
                intro same
                exact changed (back.trans same.symm)
  | other notCues notPosition same _ =>
      refine iff_of_true (fun changed => absurd same.indices changed) ?_
      rintro ⟨position, reported, _⟩
      cases event with
      | datagram now address args =>
          have different : address ≠ positionAddress false :=
            fun equal => notPosition false (congrArg some equal)
          simp [reportedBetweenBeats?, different] at reported
      | _ => cases reported

/-! ## Whole runs -/

/-- In every run, each change of the indices comes with a broadcast, and so
the indices last handed to a broadcast are the current ones, exactly when no
position leads back unseen. -/
theorem tellsChanges_iff_not_returnsUnseen
    (run : Run exec {} steps after) :
    ((∀ step ∈ steps, step.before.TellsChange step.label) ∧
      ∀ past step future, steps = past ++ step :: future →
        toldIndices (past ++ [step]) = step.after.state.indices) ↔
    ∀ step ∈ steps, ¬step.before.ReturnsUnseen step.label := by
  constructor
  · rintro ⟨tells, _⟩ step member
    exact (tellsChange_iff _ _).mp (tells step member)
  · intro kept
    have tells : ∀ step ∈ steps, step.before.TellsChange step.label :=
      fun step member => (tellsChange_iff _ _).mpr (kept step member)
    refine ⟨tells, ?_⟩
    refine run.conditionalHistoryInvariant_after
      (fun past last => toldIndices past = last.state.indices)
      (fun _ step => step.before.TellsChange step.label) rfl ?_ ?_
    · intro past current label next _ told telling taken
      obtain rfl := Option.some.inj taken
      rw [toldIndices_snoc]
      split
      · rfl
      · -- A step that tells nothing leaves the indices told before.
        rename_i silent
        rw [told]
        by_contra changed
        exact silent (telling (Ne.symm changed))
    · rintro past step future rfl
      exact tells step (by simp)

/-- A marker is moved to before the position, and playback goes on behind
it. -/
theorem tellsChanges_iff_not_returnsUnseen_markerMoved :
    ∃ steps finish, replay exec {}
        [.datagram 0 cuePointsAddress
            (oneCueReply "== A ==" 0 ++ oneCueReply "Verse" 8),
          .datagram 1 (positionAddress true) (positionReport 4),
          .datagram 2 cuePointsAddress
            (oneCueReply "== A ==" 0 ++ oneCueReply "Verse" 2),
          .datagram 3 (positionAddress false) (positionReport 5)] =
        some (steps, finish) ∧
      finish.state.indices = (0, 1) ∧
      ((∀ step ∈ steps, step.before.TellsChange step.label) ∧
        ∀ past step future, steps = past ++ step :: future →
          toldIndices (past ++ [step]) = step.after.state.indices) := by
  have runs : (replay exec {}
      [.datagram 0 cuePointsAddress
          (oneCueReply "== A ==" 0 ++ oneCueReply "Verse" 8),
        .datagram 1 (positionAddress true) (positionReport 4),
        .datagram 2 cuePointsAddress
          (oneCueReply "== A ==" 0 ++ oneCueReply "Verse" 2),
        .datagram 3 (positionAddress false) (positionReport 5)]).map
      (fun result =>
        decide (result.2.state.indices = (0, 1)) &&
          decide (∀ step ∈ result.1,
            ¬step.before.ReturnsUnseen step.label)) = some true := by
    decide +kernel
  obtain ⟨⟨steps, finish⟩, replayed, facts⟩ := Option.map_eq_some_iff.mp runs
  rw [Bool.and_eq_true, decide_eq_true_eq, decide_eq_true_eq] at facts
  exact ⟨steps, finish, replayed, facts.1,
    (tellsChanges_iff_not_returnsUnseen (run_of_replay replayed)).mpr facts.2⟩

/-- The verse is moved to before the position, and playback jumps back to
before the verse between two beats. -/
theorem not_tellsChange_of_markerMoved :
    ∃ steps finish, replay exec {}
        [.datagram 0 cuePointsAddress
            (oneCueReply "== A ==" 0 ++ oneCueReply "Verse" 8),
          .datagram 1 (positionAddress true) (positionReport 4),
          .datagram 2 cuePointsAddress
            (oneCueReply "== A ==" 0 ++ oneCueReply "Verse" 2),
          .datagram 3 (positionAddress false) (positionReport 1)] =
        some (steps, finish) ∧
      (¬∀ step ∈ steps, step.before.TellsChange step.label) ∧
      toldIndices steps = (0, 1) ∧ finish.state.indices = (0, 0) := by
  have runs : (replay exec {}
      [.datagram 0 cuePointsAddress
          (oneCueReply "== A ==" 0 ++ oneCueReply "Verse" 8),
        .datagram 1 (positionAddress true) (positionReport 4),
        .datagram 2 cuePointsAddress
          (oneCueReply "== A ==" 0 ++ oneCueReply "Verse" 2),
        .datagram 3 (positionAddress false) (positionReport 1)]).map
      (fun result => decide (
        (¬∀ step ∈ result.1, step.before.TellsChange step.label) ∧
        toldIndices result.1 = (0, 1) ∧
        result.2.state.indices = (0, 0))) = some true := by
    decide +kernel
  obtain ⟨⟨steps, finish⟩, replayed, facts⟩ := Option.map_eq_some_iff.mp runs
  exact ⟨steps, finish, replayed, of_decide_eq_true facts⟩

end AbletonBridge
end AbletonTracks
