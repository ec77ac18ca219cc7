import AbletonTracks.Library.Grid
import AbletonTracks.Server.Landing

/-!
# Bar lines

Song time counts quarter notes, so a bar of Live lasts four times the
numerator over the denominator.  The bridge only hears the numerator, and
takes it for the length of a bar: its count-in and its retargets follow Live's
bars in signatures over 4.
-/

namespace AbletonTracks

open Library

namespace System

variable {s after : System} {event : Event}
  {steps : List (Step System Event)}
  {numerator : ℤ} {denominator : ℕ} {position : ℚ}

/-- The beats of a bar of Live. -/
def barLength (numerator : ℤ) (denominator : ℕ) : ℚ :=
  4 * numerator / denominator

/-- Outside of signatures over 4, the next multiple of the numerator is Live's
next bar line nonetheless: under a smaller denominator its number is that of a
bar line, and under a greater one the position is in the last bar before
it. -/
def OnBarLine (numerator : ℤ) (denominator : ℕ) (position : ℚ) : Prop :=
  (denominator < 4 ∧ 4 ∣ denominator * (⌊position / numerator⌋ + 1)) ∨
    (4 < denominator ∧ (⌊position / numerator⌋ + 1) * (numerator : ℚ) ≤
      position + barLength numerator denominator)

/-- The launch beat of a jump is the next multiple of the numerator. -/
theorem launchBeat_eq
    {state : AppState}
    (signature : state.timeSignatureNumerator = numerator)
    (positive : 1 ≤ numerator)
    (target : Section) :
    ((jumpTo state target).launchBeat : ℚ) =
        Grid.lineAfter (numerator : ℚ) state.currentPosition ∧
      (jumpTo state target).beatsPerBar = numerator := by
  have nonzero : numerator ≠ 0 := by omega
  simp only [jumpTo, signature, if_neg nonzero, Grid.lineAfter]
  push_cast
  exact ⟨rfl, trivial⟩

theorem barLength_eq_iff
    (positive : 1 ≤ numerator)
    (power : ∃ exponent, denominator = 2 ^ exponent) :
    barLength numerator denominator = numerator ↔ denominator = 4 := by
  obtain ⟨exponent, rfl⟩ := power
  have numeratorPositive : (0 : ℚ) < numerator := by exact_mod_cast positive
  rw [barLength, div_eq_iff (by positivity), mul_comm,
    mul_right_inj' numeratorPositive.ne', eq_comm]
  exact_mod_cast Iff.rfl

/-- A multiple of the numerator is a bar line exactly if the denominator times
its number is a multiple of 4. -/
theorem exists_lineAfter_eq_iff
    (positive : 1 ≤ numerator)
    (present : 0 < denominator)
    (position : ℚ) :
    (∃ number : ℤ, Grid.lineAfter (numerator : ℚ) position =
        number * barLength numerator denominator) ↔
      (4 : ℤ) ∣ denominator * (⌊position / numerator⌋ + 1) := by
  have numeratorPositive : (0 : ℚ) < numerator := by exact_mod_cast positive
  have denominatorPositive : (0 : ℚ) < denominator := by exact_mod_cast present
  refine exists_congr fun number => ?_
  rw [Grid.lineAfter, barLength, mul_div_assoc', eq_div_iff (by positivity)]
  constructor
  · intro same
    have scaled : ((denominator : ℚ) * (⌊position / numerator⌋ + 1)) *
        numerator = (4 * number) * numerator := by linarith
    exact_mod_cast mul_right_cancel₀ numeratorPositive.ne' scaled
  · intro same
    have cast : (denominator : ℚ) * (⌊position / numerator⌋ + 1) =
        4 * number := by exact_mod_cast same
    calc ((⌊position / numerator⌋ : ℚ) + 1) * numerator * denominator
        = numerator * (denominator * (⌊position / numerator⌋ + 1)) := by ring
      _ = numerator * (4 * number) := by rw [cast]
      _ = number * (4 * numerator) := by ring

/-- The launch beat is Live's next bar line in signatures over 4, and
elsewhere only where it happens to be one. -/
theorem isLeast_lineAfter_iff
    (positive : 1 ≤ numerator)
    (power : ∃ exponent, denominator = 2 ^ exponent)
    (position : ℚ) :
    IsLeast (Grid.linesAfter (barLength numerator denominator) position)
        (Grid.lineAfter (numerator : ℚ) position) ↔
      denominator = 4 ∨ OnBarLine numerator denominator position := by
  have present : 0 < denominator := by
    obtain ⟨exponent, rfl⟩ := power
    positivity
  have numeratorPositive : (0 : ℚ) < numerator := by exact_mod_cast positive
  have denominatorPositive : (0 : ℚ) < denominator := by exact_mod_cast present
  have barPositive : 0 < barLength numerator denominator := by
    unfold barLength
    positivity
  have reads : IsLeast
      (Grid.linesAfter (barLength numerator denominator) position)
        (Grid.lineAfter (numerator : ℚ) position) ↔
      (4 : ℤ) ∣ denominator * (⌊position / numerator⌋ + 1) ∧
        Grid.lineAfter (numerator : ℚ) position -
          barLength numerator denominator ≤ position := by
    rw [Grid.isLeast_linesAfter_iff barPositive,
      exists_lineAfter_eq_iff positive present,
      and_iff_right (Grid.lt_lineAfter numeratorPositive position)]
  rcases lt_trichotomy denominator 4 with less | rfl | greater
  · -- A bar is longer than the numerator.
    have before := Grid.lineAfter_sub_le numeratorPositive position
    have longer : (numerator : ℚ) ≤ barLength numerator denominator := by
      have small : (denominator : ℚ) ≤ 4 := by exact_mod_cast less.le
      rw [barLength, le_div_iff₀ denominatorPositive]
      nlinarith
    have inBar : Grid.lineAfter (numerator : ℚ) position -
        barLength numerator denominator ≤ position := by linarith
    rw [reads, OnBarLine]
    simp [less, less.ne, inBar, not_lt_of_gt]
  · have same : barLength numerator 4 = numerator :=
      (barLength_eq_iff positive power).mpr rfl
    rw [same]
    exact iff_of_true (Grid.isLeast_lineAfter numeratorPositive position)
      (Or.inl rfl)
  · -- Every multiple of the numerator is a bar line.
    have divides : (4 : ℤ) ∣ denominator := by
      obtain ⟨exponent, rfl⟩ := power
      have enough : 2 ≤ exponent := by
        by_contra few
        have bound : 2 ^ exponent ≤ 2 ^ 2 :=
          Nat.pow_le_pow_right (by norm_num) (by omega)
        omega
      exact_mod_cast pow_dvd_pow 2 enough
    rw [reads, OnBarLine]
    simp only [divides.mul_right, true_and, greater.ne', greater.not_gt,
      false_and, false_or, greater, sub_le_iff_le_add, Grid.lineAfter]

/-- The launch beat that a tap queues is the next bar line, and the retarget
that its landing schedules, if it schedules one, lies a bar after the marker
of the section. -/
def CountsIn
    (bar : ℚ)
    (tap landing : Step System Event)
    (target : Section) : Prop :=
  (∃ launchBeat ∈ tap.after.ableton.state.queuedLaunchBeat,
    IsLeast (Grid.linesAfter bar tap.before.ableton.state.currentPosition)
      launchBeat) ∧
  ∀ retarget ∈ landing.after.ableton.pendingRetarget,
    retarget.target = target.position + bar

/-- The primary taps a section and its jump lands.  The jump follows the bars
of a signature with the numerator that the bridge has heard, exactly when the
signature is over 4, or the section has no cue clip and the launch beat happens
to be the next bar line. -/
theorem countsIn_iff
    {past sends future : List (Step System Event)}
    {tap landing : Step System Event}
    {ws : WebSocket} {songIndex sectionIndex : Int}
    {target : Section} {jump : Jump}
    (run : Run exec {} (past ++ tap :: (sends ++ landing :: future)) s)
    (taps : tap.label = .receive ws (.jump (some songIndex)
      (some sectionIndex)))
    (primary : tap.before.manager.primary = some ws)
    (found : sectionAt? tap.before.ableton.state songIndex sectionIndex =
      some target)
    (notYet : ∀ step ∈ sends, ∀ landed,
      step.before.landsNow? step.label ≠ some (ws, landed))
    (lands : landing.before.landsNow? landing.label = some (ws, jump))
    (signature : tap.before.ableton.state.timeSignatureNumerator = numerator)
    (positive : 1 ≤ numerator)
    (power : ∃ exponent, denominator = 2 ^ exponent) :
    CountsIn (barLength numerator denominator) tap landing target ↔
      denominator = 4 ∨
        landing.before.ableton.cueClipForSection? target.name = none ∧
          OnBarLine numerator denominator
            tap.before.ableton.state.currentPosition := by
  obtain ⟨pastRun, tapTaken, rest⟩ := run.split
  obtain ⟨sendRun, landTaken, _⟩ := rest.split
  rw [taps] at tapTaken
  obtain ⟨_, tapRun⟩ := pastRun.reachable.step tapTaken
  -- The jump that lands is the one that the tap began.
  obtain rfl := eq_jumpTo_of_lands pastRun.reachable tapTaken primary found
    sendRun notYet lands
  obtain ⟨launches, bar⟩ := launchBeat_eq signature positive target
  have launchBeat : tap.after.ableton.state.queuedLaunchBeat =
      some (Grid.lineAfter (numerator : ℚ)
        tap.before.ableton.state.currentPosition) := by
    have queued := queued_of_receive (fits_of_reachable pastRun.reachable)
      tapTaken primary found
    rw [launches] at queued
    exact congrArg (fun queued => queued.2.2) queued
  obtain ⟨ableton, _⟩ := land_of_lands
    (fits_of_reachable (tapRun.append sendRun).reachable) landTaken lands
  simp only [CountsIn, launchBeat, Option.mem_def, Option.some.injEq,
    exists_eq_left', isLeast_lineAfter_iff positive power, ableton]
  have overFour := barLength_eq_iff positive power
  rcases landing.before.land_cases ws
      (jumpTo tap.before.ableton.state target) with
    ⟨track, clip, cueClip, _, schedules⟩ | ⟨noClip, _, clears⟩
  · have named : landing.before.ableton.cueClipForSection? target.name =
        some (track, clip) := cueClip
    have oneBar : target.position + (numerator : ℚ) =
        target.position + barLength numerator denominator ↔
        denominator = 4 := by
      rw [add_right_inj, eq_comm, overFour]
    rw [schedules, named, bar]
    simp only [AbletonBridge.scheduleDownbeatRetarget, Option.some.injEq,
      forall_eq', reduceCtorEq, false_and, or_false]
    constructor
    · rintro ⟨_, retargets⟩
      exact oneBar.mp retargets
    · intro overFour
      exact ⟨Or.inl overFour, oneBar.mpr overFour⟩
  · have named : landing.before.ableton.cueClipForSection? target.name =
        none := noClip
    rw [clears, named]
    simp [AbletonBridge.clearPendingRetarget]

private def tapsInFour (tap landing : Step System Event) : Bool :=
  decide (tap.before.manager.primary = some ⟨0⟩ ∧
    sectionAt? tap.before.ableton.state 0 1 =
      some ⟨"Verse", 8, 1, false, none⟩ ∧
    landing.before.landsNow? landing.label =
      some (⟨0⟩, ⟨⟨"Verse", 8, 1, false, none⟩, 4, 4⟩) ∧
    tap.before.ableton.state.timeSignatureNumerator = 4)

/-- A jump in 4/4. -/
theorem countsIn_iff_four :
    ∃ steps s, replay exec {} ([songOfTwo,
        .accept ⟨0⟩ stageTablet "c0"] ++ resumes (.handler ⟨0⟩) 3 ++
        [.receive ⟨0⟩ (.jump (some 0) (some 1)),
          .resume (.handler ⟨0⟩) false]) = some (steps, s) ∧
      ∃ tap ∈ steps, ∃ landing ∈ steps,
        tap.after.ableton.state.queuedLaunchBeat ≠ none ∧
        CountsIn (barLength 4 4) tap landing
          ⟨"Verse", 8, 1, false, none⟩ := by
  have runs : (replay exec {} ([songOfTwo,
      .accept ⟨0⟩ stageTablet "c0"] ++ resumes (.handler ⟨0⟩) 3 ++
      [.receive ⟨0⟩ (.jump (some 0) (some 1)),
        .resume (.handler ⟨0⟩) false])).map (fun result =>
        (lastTwo? result.1).any fun last => tapsInFour last.1 last.2) =
      some true := by
    decide +kernel
  obtain ⟨⟨steps, s⟩, replayed, facts⟩ := Option.map_eq_some_iff.mp runs
  have run := run_of_replay replayed
  obtain ⟨past, tap, landing, rfl, taps, _, last⟩ :=
    lastTwo_of_replay replayed
  refine ⟨_, s, replayed, tap, by simp, landing, by simp, ?_⟩
  simp only [last, Option.any_some, tapsInFour, decide_eq_true_eq] at facts
  obtain ⟨primary, found, lands, signature⟩ := facts
  have whole : Run exec {} (past ++ tap :: ([] ++ landing :: [])) s := run
  have counts := countsIn_iff whole taps primary found (by simp) lands
    signature (by norm_num) ⟨2, rfl⟩
  have inFour := counts.mpr (Or.inl rfl)
  refine ⟨?_, inFour⟩
  obtain ⟨launchBeat, queued, _⟩ := inFour.1
  rw [Option.mem_def.mp queued]
  simp

/-- Ableton reports 6 beats a bar. -/
private def sixBeats : Event :=
  .ableton (.datagram 0 "/live/song/get/signature_numerator"
    [⟨"6", some (.finite 6), some 6, true, false⟩])

/-- In 6/8 the bar line at 3 is passed over. -/
theorem not_countsIn_of_sixEighths :
    ∃ s after, execAll exec {} ([songOfTwo, sixBeats,
        .accept ⟨0⟩ stageTablet "c0"] ++ resumes (.handler ⟨0⟩) 3) = some s ∧
      s.exec (.receive ⟨0⟩ (.jump (some 0) (some 1))) = some after ∧
      s.ableton.state.currentPosition = 0 ∧
      after.ableton.state.queuedLaunchBeat = some 6 ∧
      ¬IsLeast (Grid.linesAfter (barLength 6 8)
        s.ableton.state.currentPosition) 6 := by
  have runs : (execAll exec {} ([songOfTwo, sixBeats,
      .accept ⟨0⟩ stageTablet "c0"] ++ resumes (.handler ⟨0⟩) 3)).map
      (fun s => decide (s.ableton.state.currentPosition = 0 ∧
        (s.exec (.receive ⟨0⟩ (.jump (some 0) (some 1)))).map
          (fun after => after.ableton.state.queuedLaunchBeat) =
          some (some 6))) = some true := by
    decide +kernel
  obtain ⟨s, executed, facts⟩ := Option.map_eq_some_iff.mp runs
  obtain ⟨position, jumps⟩ := of_decide_eq_true facts
  obtain ⟨after, taken, launchBeat⟩ := Option.map_eq_some_iff.mp jumps
  refine ⟨s, after, executed, taken, position, launchBeat, ?_⟩
  rintro ⟨_, first⟩
  have earlier : (3 : ℚ) ∈ Grid.linesAfter (barLength 6 8)
      s.ableton.state.currentPosition := by
    rw [position]
    exact ⟨⟨1, by norm_num [barLength]⟩, by norm_num⟩
  have bound := first earlier
  norm_num at bound

end System
end AbletonTracks
