import AbletonTracks.Bridge.Place
import AbletonTracks.Library.Alarm

/-!
# The pending retarget is an alarm

`schedule_downbeat_retarget` arms it, `clear_pending_retarget` disarms it, and
every position report checks it: the first one at the launch beat or past it
snaps playback to the target.  So each call of `schedule_downbeat_retarget`
takes effect at most once, and only while it is the newest.
-/

namespace AbletonTracks

open Library

/-- The beat to which an effect snaps playback. -/
def Effect.snap? : Effect → Option ℚ
  | .send (.setCurrentSongTime beat) => some beat
  | _ => none

/-- The beats to which the effects snap playback, in order. -/
def snaps (effects : List Effect) : List ℚ := effects.filterMap Effect.snap?

theorem snaps_eq_nil
    {effects : List Effect}
    (harmless : ∀ effect ∈ effects, ¬effect.Drives) :
    snaps effects = [] := by
  rw [snaps, List.filterMap_eq_nil_iff]
  intro effect member
  have quiet := harmless effect member
  unfold Effect.snap?
  split
  · exact absurd trivial quiet
  · rfl

theorem snaps_append (early late : List Effect) :
    snaps (early ++ late) = snaps early ++ snaps late :=
  List.filterMap_append

theorem snaps_toList (due : Option Retarget) :
    snaps (due.toList.map fun retarget =>
        .send (.setCurrentSongTime retarget.target)) =
      due.toList.map Retarget.target := by
  cases due <;> rfl

namespace AbletonBridge

/-- What concerns the retarget: the two calls of the server, and whatever the
bridge handles. -/
inductive RetargetOp
  | schedule (launchBeat targetBeat : ℚ)
  | clear
  | handle (event : Event)

/-- Perform one of them. -/
def performRetarget (bridge : AbletonBridge) :
    RetargetOp → AbletonBridge × List Effect
  | .schedule launchBeat targetBeat =>
      (bridge.scheduleDownbeatRetarget launchBeat targetBeat, [])
  | .clear => (bridge.clearPendingRetarget, [])
  | .handle event => bridge.handle event

/-- The bridge after a list of them. -/
def afterRetargets (ops : List RetargetOp) : AbletonBridge :=
  ops.foldl (fun bridge op => (bridge.performRetarget op).1) {}

/-- The beats to which operation `j` of the list snaps playback. -/
def snapsAt (ops : List RetargetOp) (j : Nat) : List ℚ :=
  (ops[j]?.map fun op =>
    snaps ((afterRetargets (ops.take j)).performRetarget op).2).getD []

/-- The retarget is due at a position. -/
def Retarget.Due (retarget : Retarget) (position : ℚ) : Prop :=
  retarget.launchBeat ≤ position

instance (retarget : Retarget) (position : ℚ) :
    Decidable (Retarget.Due retarget position) :=
  inferInstanceAs (Decidable (_ ≤ _))

/-- What the operation does to the alarm. -/
def RetargetOp.alarm : RetargetOp → AlarmOp Retarget ℚ
  | .schedule launchBeat targetBeat => .arm ⟨launchBeat, targetBeat⟩
  | .clear => .disarm
  | .handle event =>
      match reportedPosition? event with
      | some position => .check position
      | none => .idle

/-! ## The bridge follows the alarm -/

theorem snaps_handleBeat
    (bridge : AbletonBridge)
    (isBeatBoundary : Bool)
    (args : List OscArgument) :
    snaps (bridge.handleBeat isBeatBoundary args).2 =
      ((args.head?.bind OscArgument.number?).bind
        bridge.retargetAt?).toList.map Retarget.target := by
  have asks : snaps (if isBeatBoundary then [Effect.send .getTempo] else []) =
      [] := by
    cases isBeatBoundary <;> rfl
  have tells : ∀ told : Prop, ∀ [Decidable told],
      snaps (if told then [Effect.positionUpdate] else []) = [] := by
    intro told _
    split <;> rfl
  cases args with
  | nil => rfl
  | cons first rest =>
      simp only [handleBeat, List.head?_cons, Option.bind_some]
      cases first.number? with
      | none => exact asks
      | some newPosition =>
          have fires := (fireRetarget_eq (bridge.storePosition newPosition)).1
          rw [snaps_append, snaps_append, asks, tells, fires, snaps_toList,
            List.nil_append, List.append_nil]
          rfl

theorem snaps_handle (bridge : AbletonBridge) (event : Event) :
    snaps (bridge.handle event).2 =
      (bridge.dueRetarget? event).toList.map Retarget.target := by
  have handled := bridge.handles event
  generalize bridge.handle event = result at handled
  cases handled with
  | @cues now args =>
      have notDue : bridge.dueRetarget?
          (.datagram now cuePointsAddress args) = none := by
        simp [dueRetarget?, reportedPosition?, cuePointsAddress,
          positionAddress]
      rw [notDue]
      simp only [handleCuePoints]
      split <;> rfl
  | @position now isBeatBoundary args =>
      rw [dueRetarget?, reportedPosition?_position]
      exact snaps_handleBeat { bridge with lastReceived := now }
        isBeatBoundary args
  | @other _ after effects _ notPosition _ drives =>
      rw [dueRetarget?, reportedPosition?_of_address notPosition,
        snaps_eq_nil drives]
      rfl

theorem snaps_performRetarget
    (bridge : AbletonBridge)
    (op : RetargetOp) :
    snaps (bridge.performRetarget op).2 =
      (Alarm.setsOff? Retarget.Due bridge.pendingRetarget
        op.alarm).toList.map Retarget.target := by
  cases op with
  | schedule | clear => rfl
  | handle event =>
      simp only [performRetarget, snaps_handle, dueRetarget?,
        RetargetOp.alarm]
      cases reportedPosition? event <;> rfl

theorem pendingRetarget_performRetarget
    (bridge : AbletonBridge)
    (op : RetargetOp) :
    (bridge.performRetarget op).1.pendingRetarget =
      Alarm.next Retarget.Due bridge.pendingRetarget op.alarm := by
  cases op with
  | schedule | clear => rfl
  | handle event =>
      simp only [performRetarget, (bridge.handle_retarget event).2,
        dueRetarget?, RetargetOp.alarm]
      cases reportedPosition? event with
      | none => rfl
      | some position =>
          simp only [Option.bind_some, retargetAt?, Alarm.next]
          cases bridge.pendingRetarget with
          | none => rfl
          | some retarget =>
              by_cases due : retarget.launchBeat ≤ position <;>
                simp [Option.filter, Retarget.Due, due]

/-- The pending retarget is the alarm in the slot. -/
theorem pendingRetarget_afterRetargets (ops : List RetargetOp) :
    (afterRetargets ops).pendingRetarget =
      Alarm.slotAfter Retarget.Due (ops.map RetargetOp.alarm) := by
  induction ops using List.reverseRecOn with
  | nil => rfl
  | append_singleton early last inductionHypothesis =>
      have first : afterRetargets (early ++ [last]) =
          ((afterRetargets early).performRetarget last).1 := by
        simp [afterRetargets]
      rw [first, pendingRetarget_performRetarget, inductionHypothesis]
      simp [Alarm.slotAfter]

/-- What an operation snaps to is the target of the alarm it sets off. -/
theorem snapsAt_eq
    {ops : List RetargetOp} {j : Nat} {op : RetargetOp}
    (found : ops[j]? = some op) :
    snapsAt ops j = (Alarm.setsOff? Retarget.Due (Alarm.slotAfter Retarget.Due
      ((ops.map RetargetOp.alarm).take j)) op.alarm).toList.map
        Retarget.target := by
  rw [snapsAt, found, Option.map_some, Option.getD_some,
    snaps_performRetarget, pendingRetarget_afterRetargets, List.map_take]

/-- Playback snaps at an operation exactly if a retarget goes off there, to its
target and no other; each call to schedule one goes off at most once, and each
snap belongs to one call. -/
theorem snapsAt_iff_goesOff (ops : List RetargetOp) :
    (∀ j, snapsAt ops j = [] ∨ ∃ i retarget,
      Alarm.GoesOff Retarget.Due (ops.map RetargetOp.alarm) i j retarget ∧
        snapsAt ops j = [retarget.target]) ∧
    (∀ i j retarget,
      Alarm.GoesOff Retarget.Due (ops.map RetargetOp.alarm) i j retarget →
        snapsAt ops j = [retarget.target]) ∧
    (∀ i j later retarget other,
      Alarm.GoesOff Retarget.Due (ops.map RetargetOp.alarm) i j retarget →
      Alarm.GoesOff Retarget.Due (ops.map RetargetOp.alarm) i later other →
        j = later) ∧
    ∀ i earlier j retarget other,
      Alarm.GoesOff Retarget.Due (ops.map RetargetOp.alarm) i j retarget →
      Alarm.GoesOff Retarget.Due (ops.map RetargetOp.alarm) earlier j other →
        i = earlier := by
  refine ⟨?_, ?_, ?_, ?_⟩
  · intro j
    cases found : ops[j]? with
    | none => exact Or.inl (by rw [snapsAt, found]; rfl)
    | some op =>
        rw [snapsAt_eq found]
        have listed : (ops.map RetargetOp.alarm)[j]? = some op.alarm := by
          rw [List.getElem?_map, found]
          rfl
        cases goes : Alarm.setsOff? Retarget.Due (Alarm.slotAfter Retarget.Due
            ((ops.map RetargetOp.alarm).take j)) op.alarm with
        | none => exact Or.inl rfl
        | some retarget =>
            obtain ⟨i, goesOff⟩ := (Alarm.setsOff?_eq_some_iff listed).mp goes
            exact Or.inr ⟨i, retarget, goesOff, rfl⟩
  · intro i j retarget goesOff
    obtain ⟨position, checks, _⟩ := goesOff.reached
    rw [List.getElem?_map, Option.map_eq_some_iff] at checks
    obtain ⟨op, found, same⟩ := checks
    have listed : (ops.map RetargetOp.alarm)[j]? = some op.alarm := by
      rw [List.getElem?_map, found]
      rfl
    rw [snapsAt_eq found,
      (Alarm.setsOff?_eq_some_iff listed).mpr ⟨i, goesOff⟩]
    rfl
  · intro i j later retarget other first second
    exact (first.time_unique second).1
  · intro i earlier j retarget other first second
    exact (first.armed_unique second).1

end AbletonBridge
end AbletonTracks
