import AbletonTracks.Server.Control
import AbletonTracks.Server.Topics

/-!
# Which jump wins

A jump writes the queue and the loop when it is accepted, and sends its cue
jump or schedules its retarget only after its broadcast.  Another socket's
jump may come in between, so that each of two jumps wins one half.

`JumpLog` numbers the jumps as they are accepted and keeps, for each half, the
number of the jump that wrote it last.
-/

namespace AbletonTracks

open Library

namespace System

variable {s after : System} {event : Event}
  {steps : List (Step System Event)}

/-! ## The log of jumps -/

/-- The socket whose jump a step accepts. -/
def acceptsFrom? (step : Step System Event) : Option WebSocket :=
  match step.label with
  | .receive ws _ =>
      if step.before.landing? ws = none ∧ step.after.landing? ws ≠ none then
        some ws
      else none
  | _ => none

/-- The step obeys a stop. -/
def stopsNow (step : Step System Event) : Bool :=
  match step.label with
  | .receive ws .stop => step.before.manager.primary = some ws
  | _ => false

/-- The jumps of a run, numbered from 1 as they are accepted. -/
structure JumpLog where
  /-- How many jumps have been accepted: the number of the newest. -/
  accepted : Nat := 0
  /-- The number of the jump that a socket had accepted last. -/
  requests : Dict WebSocket Nat := ∅
  /-- The jump that wrote the queue last. -/
  queuedBy : Option Nat := none
  /-- The jump that sent the last loop command. -/
  loopedBy : Option Nat := none
  /-- The jump that sent the last cue jump or scheduled the last retarget. -/
  jumpedBy : Option Nat := none
  /-- The jump that scheduled the last retarget. -/
  scheduledBy : Option Nat := none
  /-- That jump was not the newest any more. -/
  scheduledLate : Bool := false
  /-- Some jump has been accepted since the last stop. -/
  sinceStop : Bool := false

namespace JumpLog

variable (log : JumpLog)

/-- A jump of the socket is accepted, and writes the queue. -/
def accept (ws : WebSocket) : JumpLog :=
  { log with
    accepted := log.accepted + 1
    requests := log.requests.insert ws (log.accepted + 1)
    queuedBy := some (log.accepted + 1)
    sinceStop := true }

/-- A handler sends a command for its socket's jump. -/
def send (number : Nat) : Command → JumpLog
  | .setLoop _ | .setLoopStart _ | .setLoopLength _ =>
      { log with loopedBy := some number }
  | .cuePointJump _ => { log with jumpedBy := some number }
  -- A cue clip is fired together with the retarget to its downbeat.
  | .clipSlotFire _ _ =>
      { log with
        jumpedBy := some number
        scheduledBy := some number
        scheduledLate := number ≠ log.accepted }
  | _ => log

/-- A command is sent. -/
def hear (entry : Option WebSocket × Command) : JumpLog :=
  match entry.1.bind log.requests.get? with
  | none => log
  | some number => log.send number entry.2

/-- What a step adds to the log. -/
def observe (step : Step System Event) : JumpLog :=
  let begun :=
    match acceptsFrom? step with
    | some ws => log.accept ws
    | none =>
        if stopsNow step then { log with sinceStop := false } else log
  (newCommands step).foldl hear begun

end JumpLog

/-- The log of a run. -/
def jumpLog (steps : List (Step System Event)) : JumpLog :=
  steps.foldl JumpLog.observe {}

theorem jumpLog_snoc
    (past : List (Step System Event))
    (step : Step System Event) :
    jumpLog (past ++ [step]) = (jumpLog past).observe step := by
  simp [jumpLog]

/-- A test of every step with the log so far. -/
def everyStep (test : JumpLog → Step System Event → Bool) :
    JumpLog → List (Step System Event) → Bool
  | _, [] => true
  | log, step :: rest =>
      test log step && everyStep test (log.observe step) rest

theorem test_of_everyStep
    {test : JumpLog → Step System Event → Bool}
    {log : JumpLog}
    (passed : everyStep test log steps = true) :
    ∀ past step future, steps = past ++ step :: future →
      test (past.foldl JumpLog.observe log) step = true := by
  induction steps generalizing log with
  | nil =>
      intro past step future whole
      simp at whole
  | cons first rest inductionHypothesis =>
      rw [everyStep, Bool.and_eq_true] at passed
      intro past step future whole
      cases past with
      | nil =>
          obtain ⟨rfl, _⟩ := List.cons.inj whole
          exact passed.1
      | cons earlier past =>
          obtain ⟨rfl, same⟩ := List.cons.inj whole
          exact inductionHypothesis passed.2 past step future same

/-! ## What a step adds -/

namespace JumpLog

variable {log : JumpLog}

/-- Commands that no handler sends for a jump add nothing. -/
theorem foldl_hear_of_silent
    {added : List (Option WebSocket × Command)}
    (silent : ∀ entry ∈ added, ∀ log : JumpLog, log.hear entry = log) :
    added.foldl hear log = log := by
  induction added with
  | nil => rfl
  | cons entry rest inductionHypothesis =>
      rw [List.foldl_cons, silent entry List.mem_cons_self]
      exact inductionHypothesis fun other member =>
        silent other (List.mem_cons_of_mem _ member)

theorem hear_of_not_drives
    {entry : Option WebSocket × Command}
    (harmless : ¬entry.2.Drives)
    (log : JumpLog) :
    log.hear entry = log := by
  obtain ⟨origin, command⟩ := entry
  unfold hear
  split
  · rfl
  · cases command <;> first | rfl | exact absurd trivial harmless

/-- The loop commands of a jump, bound or released. -/
theorem foldl_hear_loopFor
    {ws : WebSocket} {number : Nat}
    (target : Section)
    (numbered : log.requests.get? ws = some number) :
    (commandsOf (some ws) (loopFor target)).foldl hear log =
      { log with loopedBy := some number } := by
  have released : (commandsOf (some ws) AbletonBridge.disableLoop).foldl hear
      log = { log with loopedBy := some number } := by
    simp [commandsOf, AbletonBridge.disableLoop, Effect.command?, hear,
      numbered, send]
  unfold loopFor
  split
  · split
    · simp [commandsOf, AbletonBridge.setLoopRegion, Effect.command?, hear,
        numbered, send]
    · exact released
  · exact released

/-- A step that accepts no jump and sends nothing for one. -/
theorem observe_of_silent
    (same : ∀ ws, after.landing? ws = s.landing? ws)
    (silent : ∀ entry ∈ newCommands ⟨s, event, after⟩, ∀ log : JumpLog,
      log.hear entry = log) :
    log.observe ⟨s, event, after⟩ =
      { log with
        sinceStop := log.sinceStop && !stopsNow ⟨s, event, after⟩ } := by
  have none : acceptsFrom? ⟨s, event, after⟩ = none := by
    unfold acceptsFrom?
    split
    · exact if_neg fun both => both.2 ((same _).trans both.1)
    · rfl
  rw [observe, none, foldl_hear_of_silent silent]
  cases stopsNow ⟨s, event, after⟩ <;> simp

theorem observe_of_accepts
    {step : Step System Event} {ws : WebSocket}
    (accepts : acceptsFrom? step = some ws) :
    log.observe step = (newCommands step).foldl hear (log.accept ws) := by
  rw [observe, accepts]

theorem observe_resume
    {c : Coroutine} {raised : Bool} :
    log.observe ⟨s, .resume c raised, after⟩ =
      (newCommands ⟨s, .resume c raised, after⟩).foldl hear log := rfl

/-! ## Every step -/

/-- How the log and the jumps in progress go on in a step. -/
inductive Grows (log : JumpLog) (s : System) (event : Event) :
    JumpLog → System → Prop
  /-- No jump is accepted or lands. -/
  | keeps {after : System} {since : Bool} :
      (since = true → log.sinceStop = true) →
      s.landsNow? event = none →
      (∀ ws, after.landing? ws = s.landing? ws) →
      after.ableton.pendingRetarget = s.ableton.pendingRetarget ∨
        after.ableton.pendingRetarget = none →
      Grows log s event { log with sinceStop := since } after
  /-- A jump is accepted. -/
  | accepts {ws : WebSocket} {after : System} :
      s.landsNow? event = none →
      s.landing? ws = none →
      after.landing? ws ≠ none →
      (∀ other, other ≠ ws → after.landing? other = s.landing? other) →
      after.ableton.pendingRetarget = s.ableton.pendingRetarget →
      Grows log s event
        { log.accept ws with loopedBy := some (log.accepted + 1) } after
  /-- A jump lands at its cue. -/
  | jumps
      {ws : WebSocket} {jump : Jump} {number : Nat} {after : System} :
      s.landsNow? event = some (ws, jump) →
      log.requests.get? ws = some number →
      after.landing? ws = none →
      (∀ other, other ≠ ws → after.landing? other = s.landing? other) →
      after.ableton.pendingRetarget = none →
      Grows log s event { log with jumpedBy := some number } after
  /-- A jump lands with its cue clip. -/
  | fires
      {ws : WebSocket} {jump : Jump} {number : Nat} {after : System} :
      s.landsNow? event = some (ws, jump) →
      log.requests.get? ws = some number →
      after.landing? ws = none →
      (∀ other, other ≠ ws → after.landing? other = s.landing? other) →
      Grows log s event
        { log with
          jumpedBy := some number
          scheduledBy := some number
          scheduledLate := number ≠ log.accepted } after

/-- Every jump in progress has a number. -/
def Numbers (log : JumpLog) (s : System) : Prop :=
  ∀ ws, s.landing? ws ≠ none → ∃ number, log.requests.get? ws = some number

theorem grows_of_exec
    (fits : s.Fits)
    (taken : s.exec event = some after)
    (numbers : log.Numbers s) :
    log.Grows s event (log.observe ⟨s, event, after⟩) after := by
  -- Without a change of the jumps in progress none lands.
  have lands : (∀ ws, after.landing? ws = s.landing? ws) →
      s.landsNow? event = none := by
    intro same
    cases now : s.landsNow? event with
    | none => rfl
    | some landing =>
        obtain ⟨ws, jump⟩ := landing
        have afterwards := landing?_of_lands fits taken now
        rw [same, (landing?_of_landsNow? now).1] at afterwards
        cases afterwards
  have kept : ∀ stopped : Bool, (log.sinceStop && !stopped) = true →
      log.sinceStop = true := by
    intro stopped both
    exact (Bool.and_eq_true_iff.mp both).1
  cases acts_of_exec fits taken with
  | asks harmless ableton commands same =>
      rw [observe_of_silent same]
      · exact .keeps (kept _) (lands same) same (Or.inl (by rw [ableton]))
      · rw [newCommands_of_append commands]
        exact fun entry member => hear_of_not_drives (harmless entry member)
  | orders _ command ableton commands same =>
      rw [observe_of_silent same]
      · exact .keeps (kept _) (lands same) same (Or.inl (by rw [ableton]))
      · rw [newCommands_of_append commands]
        intro entry member log
        obtain rfl := List.mem_singleton.mp member
        unfold hear
        rcases command with rfl | ⟨track, muted, rfl⟩ <;> split <;> rfl
  | stops _ ableton commands same =>
      rw [observe_of_silent same]
      · exact .keeps (kept _) (lands same) same (Or.inr (by rw [ableton]; rfl))
      · rw [newCommands_of_append commands]
        intro entry member log
        obtain rfl := List.mem_singleton.mp member
        unfold hear
        split <;> rfl
  | handles ableton commands same =>
      rw [observe_of_silent same]
      · refine .keeps (kept _) (lands same) same ?_
        rw [ableton, (AbletonBridge.handle_retarget _ _).2]
        cases AbletonBridge.dueRetarget? s.ableton _ with
        | none => exact Or.inl rfl
        | some due => exact Or.inr rfl
      · rw [newCommands_of_append commands]
        rintro ⟨origin, command⟩ member log
        obtain rfl := (mem_commandsOf.mp member).1
        rfl
  | @accepts ws songIndex sectionIndex target _ _ before _ ableton commands
      own others =>
      have begins : after.landing? ws ≠ none := by
        rw [own]
        simp
      have numbered : (log.accept ws).requests.get? ws =
          some (log.accepted + 1) := Dict.get?_insert_self _ _ _
      have accepted : acceptsFrom? ⟨s, .receive ws (.jump (some songIndex)
          (some sectionIndex)), after⟩ = some ws := if_pos ⟨before, begins⟩
      rw [observe_of_accepts accepted, newCommands_of_append commands,
        foldl_hear_loopFor target numbered]
      refine .accepts ?_ before begins others (by rw [ableton]; rfl)
      rfl
  | @lands _ ws jump _ now ableton commands own others =>
      obtain ⟨pending, raised, rfl⟩ := landing?_of_landsNow? now
      obtain ⟨number, numbered⟩ := numbers ws (by simp [pending])
      rw [observe_resume]
      rcases s.land_cases ws jump with
        ⟨track, clip, _, fires, _⟩ | ⟨_, jumps, clears⟩
      · rw [newCommands_of_append (commands.trans fires)]
        simp only [List.foldl_cons, List.foldl_nil, hear, Option.bind_some,
          numbered, send]
        exact .fires now numbered own others
      · rw [newCommands_of_append (commands.trans jumps)]
        simp only [List.foldl_cons, List.foldl_nil, hear, Option.bind_some,
          numbered, send]
        exact .jumps now numbered own others (by rw [ableton, clears]; rfl)

/-- The numbers of a log: each socket's last jump has its own, and the newest
jump wrote the queue and the loop. -/
structure Fits (log : JumpLog) (s : System) : Prop where
  numbers : log.Numbers s
  bounded : ∀ ws number, log.requests.get? ws = some number →
    0 < number ∧ number ≤ log.accepted
  distinct : ∀ ws other number, log.requests.get? ws = some number →
    log.requests.get? other = some number → ws = other
  written : 0 < log.accepted →
    log.queuedBy = some log.accepted ∧ log.loopedBy = some log.accepted
  since : log.sinceStop = true → 0 < log.accepted

theorem fits_initial : Fits {} {} where
  numbers ws pending := absurd rfl pending
  bounded ws number impossible := by simp at impossible
  distinct ws other number impossible := by simp at impossible
  written impossible := absurd impossible (Nat.lt_irrefl 0)
  since impossible := by cases impossible

/-- What a newly accepted jump finds in the log. -/
theorem get?_accept
    {ws other : WebSocket} {number : Nat}
    (found : (log.accept ws).requests.get? other = some number) :
    (other = ws ∧ number = log.accepted + 1) ∨
      (other ≠ ws ∧ log.requests.get? other = some number) := by
  by_cases same : other = ws
  · subst same
    have numbered : (log.accept other).requests.get? other =
        some (log.accepted + 1) := Dict.get?_insert_self _ _ _
    exact Or.inl ⟨rfl, Option.some.inj (found.symm.trans numbered)⟩
  · have kept : (log.accept ws).requests.get? other =
        log.requests.get? other := Dict.get?_insert_of_ne _ same _
    exact Or.inr ⟨same, kept.symm.trans found⟩

/-- A jump lands and takes no other jump's number. -/
theorem Numbers.lands
    {ws : WebSocket}
    (numbers : log.Numbers s)
    (own : after.landing? ws = none)
    (others : ∀ other, other ≠ ws →
      after.landing? other = s.landing? other) :
    log.Numbers after := by
  intro other pending
  have different : other ≠ ws := by
    rintro rfl
    exact pending own
  exact numbers other (by rwa [others other different] at pending)

theorem Fits.grows
    {later : JumpLog}
    (fits : log.Fits s)
    (grows : log.Grows s event later after) :
    later.Fits after := by
  cases grows with
  | keeps since _ same _ =>
      refine ⟨?_, fits.bounded, fits.distinct, fits.written,
        fun stopped => fits.since (since stopped)⟩
      intro ws pending
      exact fits.numbers ws (by rwa [same] at pending)
  | @accepts ws _ _ _ _ others _ =>
      refine ⟨?_, ?_, ?_, fun _ => ⟨rfl, rfl⟩, fun _ => Nat.succ_pos _⟩
      · intro other pending
        by_cases same : other = ws
        · exact ⟨_, by rw [same]; exact Dict.get?_insert_self _ _ _⟩
        · rw [others other same] at pending
          obtain ⟨number, found⟩ := fits.numbers other pending
          exact ⟨number, (Dict.get?_insert_of_ne _ same _).trans found⟩
      · intro other number found
        change 0 < number ∧ number ≤ log.accepted + 1
        rcases get?_accept found with ⟨_, rfl⟩ | ⟨_, earlier⟩
        · exact ⟨Nat.succ_pos _, Nat.le_refl _⟩
        · have bounds := fits.bounded _ _ earlier
          omega
      · intro first second number found again
        rcases get?_accept found with ⟨rfl, rfl⟩ | ⟨_, earlier⟩
        · rcases get?_accept again with ⟨rfl, _⟩ | ⟨_, other⟩
          · rfl
          · have bounds := fits.bounded _ _ other
            omega
        · rcases get?_accept again with ⟨rfl, rfl⟩ | ⟨_, other⟩
          · have bounds := fits.bounded _ _ earlier
            omega
          · exact fits.distinct _ _ _ earlier other
  | jumps _ _ own others _ | fires _ _ own others =>
      exact ⟨fits.numbers.lands own others, fits.bounded, fits.distinct,
        fits.written, fits.since⟩

end JumpLog

/-- Along a run the log's numbers fit. -/
theorem fits_jumpLog
    (run : Run exec {} steps s) :
    (jumpLog steps).Fits s := by
  refine run.historyInvariant (fun past current => (jumpLog past).Fits current)
    JumpLog.fits_initial ?_
  intro past current event next pastRun fits taken
  rw [jumpLog_snoc]
  exact fits.grows (JumpLog.grows_of_exec (fits_of_reachable pastRun.reachable)
    taken fits.numbers)

/-- How the log goes on in a step of a run. -/
theorem grows_of_run
    {past : List (Step System Event)}
    (pastRun : Run exec {} past s)
    (taken : s.exec event = some after) :
    (jumpLog past).Grows s event
      (jumpLog (past ++ [⟨s, event, after⟩])) after := by
  rw [jumpLog_snoc]
  exact JumpLog.grows_of_exec (fits_of_reachable pastRun.reachable) taken
    (fits_jumpLog pastRun).numbers

/-! ## One jump wins both halves -/

/-- Once no jump is in progress, the queue, the loop and the jump sent last
come from one jump, if any was accepted since the last stop. -/
def Agrees (log : JumpLog) (s : System) : Prop :=
  (∀ ws, s.landing? ws = none) → log.sinceStop = true →
    ∃ number, log.queuedBy = some number ∧ log.loopedBy = some number ∧
      log.jumpedBy = some number

/-- The only jump in progress lands although a newer one was accepted. -/
def LandsLate (log : JumpLog) (s : System) (event : Event) : Prop :=
  ∃ landing ∈ s.landsNow? event,
    log.requests.get? landing.1 ≠ some log.accepted ∧
    log.sinceStop = true ∧
    ∀ other, other ≠ landing.1 → s.landing? other = none

/-- After a jump has landed, the halves agree exactly when it did not land
late. -/
theorem agrees_of_lands_iff
    {log later : JumpLog} {ws : WebSocket} {jump : Jump} {number : Nat}
    (fits : log.Fits s)
    (now : s.landsNow? event = some (ws, jump))
    (numbered : log.requests.get? ws = some number)
    (own : after.landing? ws = none)
    (others : ∀ other, other ≠ ws → after.landing? other = s.landing? other)
    (jumped : later.jumpedBy = some number)
    (queued : later.queuedBy = log.queuedBy)
    (looped : later.loopedBy = log.loopedBy)
    (since : later.sinceStop = log.sinceStop) :
    Agrees later after ↔ ¬LandsLate log s event := by
  have quiet : (∀ other, after.landing? other = none) ↔
      ∀ other, other ≠ ws → s.landing? other = none := by
    constructor
    · intro all other different
      rw [← others other different, all]
    · intro all other
      by_cases same : other = ws
      · rw [same, own]
      · rw [others other same, all other same]
  constructor
  · rintro agrees ⟨landing, found, late, open', alone⟩
    obtain rfl := Option.some.inj (now.symm.trans found)
    obtain ⟨winner, queue, _, last⟩ :=
      agrees (quiet.mpr alone) (since.trans open')
    refine late ?_
    rw [queued, (fits.written (fits.since open')).1] at queue
    rw [jumped] at last
    rw [numbered, last, queue]
  · intro inTime all open'
    rw [since] at open'
    obtain ⟨queue, loop⟩ := fits.written (fits.since open')
    refine ⟨log.accepted, queued.trans queue, looped.trans loop, ?_⟩
    by_contra different
    refine inTime ⟨(ws, jump), now, ?_, open', quiet.mp all⟩
    rw [numbered]
    rwa [jumped] at different

/-- A step after which the halves agree lands no jump late. -/
theorem not_landsLate_of_grows
    {log later : JumpLog}
    (fits : log.Fits s)
    (grows : log.Grows s event later after)
    (agrees : Agrees later after) :
    ¬LandsLate log s event := by
  cases grows with
  | keeps _ quiet _ _ | accepts quiet _ _ _ _ =>
      rintro ⟨landing, found, _⟩
      rw [quiet] at found
      cases found
  | jumps now numbered own others _ | fires now numbered own others =>
      refine (agrees_of_lands_iff fits now numbered own others
        ?_ ?_ ?_ ?_).mp agrees <;> rfl

/-- A step that lands no jump late leaves the halves agreeing. -/
theorem agrees_of_grows
    {log later : JumpLog}
    (fits : log.Fits s)
    (grows : log.Grows s event later after)
    (agrees : Agrees log s)
    (inTime : ¬LandsLate log s event) :
    Agrees later after := by
  cases grows with
  | keeps since _ same _ =>
      intro all open'
      exact agrees (fun ws => (same ws).symm.trans (all ws)) (since open')
  | accepts _ _ begins _ _ =>
      intro all _
      exact absurd (all _) begins
  | jumps now numbered own others _ | fires now numbered own others =>
      refine (agrees_of_lands_iff fits now numbered own others
        ?_ ?_ ?_ ?_).mpr inTime <;> rfl

/-- In every run the halves agree after every step exactly when no jump lands
late. -/
theorem agrees_iff_not_landsLate
    (run : Run exec {} steps s) :
    (∀ past step future, steps = past ++ step :: future →
      Agrees (jumpLog (past ++ [step])) step.after) ↔
    ∀ past step future, steps = past ++ step :: future →
      ¬LandsLate (jumpLog past) step.before step.label := by
  constructor
  · rintro agree past step future rfl
    obtain ⟨pastRun, taken, _⟩ := run.split
    exact not_landsLate_of_grows (fits_jumpLog pastRun)
      (grows_of_run pastRun taken) (agree past step future rfl)
  · refine run.conditionalHistoryInvariant_after
      (fun past current => Agrees (jumpLog past) current)
      (fun past step => ¬LandsLate (jumpLog past) step.before step.label)
      ?_ ?_
    · intro _ impossible
      cases impossible
    · intro past current event next pastRun agrees inTime taken
      exact agrees_of_grows (fits_jumpLog pastRun)
        (grows_of_run pastRun taken) agrees inTime

/-- Two sockets of one tablet: the second one takes over while the jump of
the first is in its broadcast. -/
def jumpThenReconnect : List Event :=
  [songOfTwo, .resume (.task 0) false, .accept ⟨0⟩ stageTablet "c0"] ++
    resumes (.handler ⟨0⟩) 3 ++
    [.receive ⟨0⟩ (.jump (some 0) (some 1)),
      .accept ⟨1⟩ stageTablet "c1"] ++ resumes (.handler ⟨1⟩) 6

private def landsNewest (log : JumpLog) (step : Step System Event) : Bool :=
  match step.before.landsNow? step.label with
  | some landing => log.requests.get? landing.1 = some log.accepted
  | none => true

/-- The first jump lands before the second socket jumps too. -/
theorem agrees_iff_not_landsLate_inOrder :
    ∃ steps s, replay exec {} (jumpThenReconnect ++
        resumes (.handler ⟨0⟩) 1 ++
        [.receive ⟨1⟩ (.jump (some 0) (some 0))] ++
        resumes (.handler ⟨1⟩) 2) = some (steps, s) ∧
      (jumpLog steps).jumpedBy = some 2 ∧
      ∀ past step future, steps = past ++ step :: future →
        Agrees (jumpLog (past ++ [step])) step.after := by
  have runs : (replay exec {} (jumpThenReconnect ++
      resumes (.handler ⟨0⟩) 1 ++
      [.receive ⟨1⟩ (.jump (some 0) (some 0))] ++
      resumes (.handler ⟨1⟩) 2)).map (fun result =>
        decide ((jumpLog result.1).jumpedBy = some 2) &&
          everyStep landsNewest {} result.1) = some true := by
    decide +kernel
  obtain ⟨⟨steps, s⟩, replayed, facts⟩ := Option.map_eq_some_iff.mp runs
  rw [Bool.and_eq_true, decide_eq_true_eq] at facts
  refine ⟨steps, s, replayed, facts.1,
    (agrees_iff_not_landsLate (run_of_replay replayed)).mpr ?_⟩
  rintro past step future whole ⟨landing, found, late, _⟩
  have newest := test_of_everyStep facts.2 past step future whole
  rw [landsNewest, found] at newest
  exact late (of_decide_eq_true newest)

/-- The second socket jumps and lands before the first jump does. -/
theorem not_agrees_of_superseded :
    ∃ steps s, replay exec {} (jumpThenReconnect ++
        [.receive ⟨1⟩ (.jump (some 0) (some 0))] ++
        resumes (.handler ⟨1⟩) 2 ++ resumes (.handler ⟨0⟩) 1) =
        some (steps, s) ∧
      (∀ ws, s.landing? ws = none) ∧
      s.ableton.state.queued = (0, 0, some 4) ∧
      s.commands.getLast? = some (some ⟨0⟩, .cuePointJump 1) ∧
      (jumpLog steps).queuedBy = some 2 ∧ (jumpLog steps).jumpedBy = some 1 ∧
      ¬Agrees (jumpLog steps) s := by
  have runs : (replay exec {} (jumpThenReconnect ++
      [.receive ⟨1⟩ (.jump (some 0) (some 0))] ++
      resumes (.handler ⟨1⟩) 2 ++ resumes (.handler ⟨0⟩) 1)).map
      (fun result => decide (result.2.AtRest ∧
        result.2.ableton.state.queued = (0, 0, some 4) ∧
        result.2.commands.getLast? = some (some ⟨0⟩, .cuePointJump 1) ∧
        (jumpLog result.1).queuedBy = some 2 ∧
        (jumpLog result.1).jumpedBy = some 1 ∧
        (jumpLog result.1).sinceStop = true)) = some true := by
    decide +kernel
  obtain ⟨⟨steps, s⟩, replayed, facts⟩ := Option.map_eq_some_iff.mp runs
  obtain ⟨resting, queued, last, queuedBy, jumpedBy, since⟩ :=
    of_decide_eq_true facts
  have quiet : ∀ ws, s.landing? ws = none := by
    intro ws
    cases stands : s.phase? (.handler ws) with
    | none => rw [landing?, stands, Option.bind_none]
    | some phase =>
        rw [landing?, stands, Option.bind_some]
        rcases resting.phase stands with rfl | rfl <;> rfl
  refine ⟨steps, s, replayed, quiet, queued, last, queuedBy, jumpedBy, ?_⟩
  intro agrees
  obtain ⟨number, queue, _, jump⟩ := agrees quiet since
  rw [queuedBy] at queue
  rw [jumpedBy] at jump
  cases queue.trans jump.symm

end System
end AbletonTracks
