import AbletonTracks.Manager.Consistency

/-!
# Control belongs to an install

An install holds control while its socket is primary or the slot is reserved
for it.  The timed machine lets a timer fire only once its delay has passed;
under it, an install that holds control keeps it until it gives control away
or has been gone for a whole grace period.  The reservation's timer is tied to
the close of the install's last socket by an invariant over the history.
-/

namespace AbletonTracks

open Library

namespace ConnectionManager

variable {m after start finish : ConnectionManager} {op : Op}
  {todo : List Todo} {a : ClientId}
  {past between : List (Step ConnectionManager Op)}

/-! ## Timed runs -/

/-- Timers fire when they are due, and time does not go back. -/
def OnTime (m : ConnectionManager) : Op → Prop
  | .fire task => ∀ timer ∈ m.loop.timer? task, timer.due ≤ m.loop.time
  | .wait time => m.loop.time ≤ time
  | _ => True

instance (m : ConnectionManager) : (op : Op) → Decidable (m.OnTime op)
  | .fire task =>
      inferInstanceAs (Decidable (∀ timer ∈ m.loop.timer? task, _))
  | .wait time => inferInstanceAs (Decidable (m.loop.time ≤ time))
  | .connect .. | .setName .. | .disconnect .. | .requestControl ..
  | .cancelRequest .. | .respond .. | .grant .. | .release .. =>
      inferInstanceAs (Decidable True)

/-- The machine with a clock. -/
def timedExec (m : ConnectionManager) (op : Op) : Option ConnectionManager :=
  if m.OnTime op then m.exec op else none

theorem timedExec_eq_some :
    m.timedExec op = some after ↔ m.OnTime op ∧ m.exec op = some after := by
  simp [timedExec]

/-! ## Holding control -/

/-- A connected socket of the install. -/
def Carries (m : ConnectionManager) (ws : WebSocket) (a : ClientId) : Prop :=
  ∃ client ∈ m.clients.get? ws, client.clientId = some a

instance (m : ConnectionManager) (ws : WebSocket) (a : ClientId) :
    Decidable (m.Carries ws a) :=
  inferInstanceAs (Decidable (∃ client ∈ m.clients.get? ws, _))

/-- The install holds control: its socket is primary or the slot is reserved
for it. -/
def Holds (m : ConnectionManager) (a : ClientId) : Prop :=
  (∃ ws ∈ m.primary, m.Carries ws a) ∨ m.reservedFor = some a

instance (m : ConnectionManager) (a : ClientId) : Decidable (m.Holds a) :=
  inferInstanceAs (Decidable ((∃ ws ∈ m.primary, m.Carries ws a) ∨ _))

/-- A new socket of the install. -/
def ConnectsInstall (a : ClientId) : Op → Prop
  | .connect _ params connectionId =>
      (newClient params connectionId).clientId = some a
  | _ => False

/-- The step closes the install's last socket. -/
def ClosesLast (a : ClientId) (step : Step ConnectionManager Op) : Prop :=
  (∃ ws, step.label = .disconnect ws ∧ step.before.Carries ws a) ∧
    ∀ ws, ¬step.after.Carries ws a

/-- The ways in which an install may lose control in a step that follows the
steps `past`. -/
inductive Loses
    (a : ClientId)
    (past : List (Step ConnectionManager Op))
    (step : Step ConnectionManager Op) : Prop
  | released (ws : WebSocket) :
      step.label = .release ws →
      step.before.primary = some ws →
      step.before.Carries ws a →
      Loses a past step
  | granted (ws target : WebSocket) (connectionId : String) :
      step.label = .grant ws connectionId →
      step.before.primary = some ws →
      step.before.Carries ws a →
      step.after.primary = some target →
      ¬step.after.Carries target a →
      Loses a past step
  | accepted (ws : WebSocket) (request : Request) :
      step.label = .respond ws request.requestId true →
      step.before.primary = some ws →
      step.before.Carries ws a →
      step.before.request = some request →
      ¬step.before.Carries request.requester a →
      Loses a past step
  /-- A whole grace period has passed since the install's last socket closed,
  and none of its sockets connected in it. -/
  | lapsed
      (task : TaskId)
      (earlier : List (Step ConnectionManager Op))
      (closing : Step ConnectionManager Op)
      (later : List (Step ConnectionManager Op)) :
      step.label = .fire task →
      past = earlier ++ closing :: later →
      ClosesLast a closing →
      (∀ other ∈ later, ¬ConnectsInstall a other.label) →
      closing.after.loop.time + reclaimGrace ≤ step.before.loop.time →
      Loses a past step

/-! ## Reservations and their timers -/

/-- A reservation was there before, or the step closed the last socket of a
primary's install. -/
theorem reservation_origin
    (branch : m.Transition op after todo)
    (reserved : after.reservedFor = some a) :
    m.reservedFor = some a ∨
      (m.primary ≠ none ∧ ClosesLast a ⟨m, op, after⟩) := by
  cases branch with
  | reclaims | slotEmpties | slotGranted => cases reserved
  | leaves | handsBack | empties =>
      simp only [forget_reservedFor] at reserved
      exact Or.inl reserved
  | @reserves ws client b stored primary carries nobody =>
      obtain rfl := Option.some.inj reserved
      refine Or.inr ⟨by simp [primary], ⟨ws, rfl, client, stored, carries⟩, ?_⟩
      rintro other ⟨otherClient, found, otherCarries⟩
      refine nobody other otherClient ?_ otherCarries
      simpa using found
  | _ => exact Or.inl reserved

theorem mem_of_mem_cancel
    {loop : EventLoop}
    {task : Option TaskId}
    {timer : Timer}
    (member : timer ∈ (loop.cancel task).timers) :
    timer ∈ loop.timers := by
  cases task with
  | none => exact member
  | some task => exact List.mem_of_mem_filter member

@[simp] theorem cancel_time (loop : EventLoop) (task : Option TaskId) :
    (loop.cancel task).time = loop.time := by
  cases task <;> rfl

@[simp] theorem forget_time (m : ConnectionManager) (ws : WebSocket) :
    (m.forget ws).loop.time = m.loop.time := by
  simp only [forget]
  split
  · simp
  · rfl

theorem mem_of_mem_forget
    {ws : WebSocket}
    {timer : Timer}
    (member : timer ∈ (m.forget ws).loop.timers) :
    timer ∈ m.loop.timers := by
  simp only [forget] at member
  split at member
  · exact mem_of_mem_cancel member
  · exact member

/-- A reservation's timer was sleeping before, or a primary's slot became
reserved just now and its timer has the whole grace period left. -/
theorem reservationTimer_origin
    {timer : Timer}
    (branch : m.Transition op after todo)
    (sleeping : timer ∈ after.loop.timers)
    (body : timer.body = .reservationExpiry a) :
    timer ∈ m.loop.timers ∨
      (m.primary ≠ none ∧ timer.due = after.loop.time + reclaimGrace) := by
  cases branch with
  | reclaims => exact Or.inl (mem_of_mem_cancel sleeping)
  | leaves | handsBack | empties => exact Or.inl (mem_of_mem_forget sleeping)
  | reserves _ primary =>
      simp only [startReservation, EventLoop.createTask,
        List.mem_append, List.mem_singleton] at sleeping
      rcases sleeping with old | rfl
      · exact Or.inl (mem_of_mem_forget (mem_of_mem_cancel old))
      · exact Or.inr ⟨by simp [primary], rfl⟩
  | requestPends =>
      simp only [EventLoop.createTask, List.mem_append,
        List.mem_singleton] at sleeping
      rcases sleeping with old | rfl
      · exact Or.inl old
      · cases body
  | withdraws | accepts | denies | grants | releases | releasesTo | outlived
  | slotEmpties | requestExpires =>
      exact Or.inl (mem_of_mem_cancel sleeping)
  | slotGranted =>
      exact Or.inl (mem_of_mem_cancel (mem_of_mem_cancel sleeping))
  | _ => exact Or.inl sleeping

/-- The slot is held since the install's last socket closed, nobody of the
install has connected since, and the reservation's timer leaves the install
the whole grace period. -/
def ReservationFits
    (past : List (Step ConnectionManager Op))
    (m : ConnectionManager) : Prop :=
  ∀ a, m.reservedFor = some a →
    ∃ earlier closing later, past = earlier ++ closing :: later ∧
      ClosesLast a closing ∧
      (∀ other ∈ later, ¬ConnectsInstall a other.label) ∧
      ∀ timer ∈ m.loop.timers, timer.body = .reservationExpiry a →
        closing.after.loop.time + reclaimGrace ≤ timer.due

/-- Whoever a reserved slot is held for reclaims it by connecting. -/
theorem not_connectsInstall_of_reserved
    (roles : m.RolesFit)
    (branch : m.Transition op after todo)
    (before : m.reservedFor = some a)
    (still : after.reservedFor = some a) :
    ¬ConnectsInstall a op := by
  intro connects
  cases branch with
  | reclaims => cases still
  | supersedes _ _ primary =>
      rw [roles.reservedFor_eq_none primary] at before
      cases before
  | takesSlot _ unreserved =>
      rw [unreserved] at before
      cases before
  | observes others => exact (others a connects).1 before
  | _ => exact connects

theorem reservationFits
    (run : Run exec {} past m) :
    ReservationFits past m := by
  refine run.historyInvariant ReservationFits (by simp [ReservationFits]) ?_
  intro past current op after earlierRun fit taken a reserved
  obtain ⟨enabled, todo, _, branch⟩ := transition_of_exec taken
  obtain ⟨roles, timers⟩ := fits_of_reachable earlierRun.reachable
  rcases reservation_origin branch reserved with before | ⟨held, closes⟩
  · obtain ⟨earlier, closing, later, rfl, closes, nobody, due⟩ :=
      fit a before
    refine ⟨earlier, closing, later ++ [⟨current, op, after⟩], by simp,
      closes, ?_, ?_⟩
    · intro other member
      rcases List.mem_append.mp member with old | new
      · exact nobody other old
      · obtain rfl := List.mem_singleton.mp new
        exact not_connectsInstall_of_reserved roles branch before reserved
    · intro timer sleeping body
      rcases reservationTimer_origin branch sleeping body with
        old | ⟨held, _⟩
      · exact due timer old body
      · exact absurd (roles.vacant (by simp [before])) held
  · refine ⟨past, ⟨current, op, after⟩, [], rfl, closes, by simp, ?_⟩
    intro timer sleeping body
    rcases reservationTimer_origin branch sleeping body with old | ⟨_, due⟩
    · have before := (timers.reserved_of_sleeping old body).1
      exact absurd (roles.vacant (by simp [before])) held
    · exact due.ge

/-! ## One step -/

/-- While an install holds control, nobody else is primary. -/
theorem Holds.carries
    (roles : m.RolesFit)
    (holds : m.Holds a)
    {ws : WebSocket}
    (primary : m.primary = some ws) :
    m.Carries ws a := by
  rcases holds with ⟨holder, holderPrimary, carries⟩ | reserved
  · obtain rfl := Option.some.inj (primary.symm.trans holderPrimary)
    exact carries
  · rw [roles.reservedFor_eq_none primary] at reserved
    cases reserved

/-- A slot that an install holds without being primary is reserved for it. -/
theorem Holds.reserved
    (holds : m.Holds a)
    (vacant : m.primary = none) :
    m.reservedFor = some a := by
  rcases holds with ⟨holder, primary, _⟩ | reserved
  · rw [vacant] at primary
    cases primary
  · exact reserved

/-- Nothing changes for the install as long as its primary stays. -/
theorem Holds.keeps
    (holds : m.Holds a)
    (enabled : m.Enabled op)
    (branch : m.Transition op after todo)
    (staying : ∀ ws, m.primary = some ws → op ≠ .disconnect ws)
    (primary : after.primary = m.primary)
    (reservedFor : after.reservedFor = m.reservedFor) :
    after.Holds a := by
  rcases holds with ⟨ws, holds, client, found, carries⟩ | reserved
  · obtain ⟨later, stored, sameId, _⟩ :=
      client_persists enabled branch found (staying ws holds)
    exact Or.inl ⟨ws, primary.trans holds, later, stored,
      sameId.trans carries⟩
  · exact Or.inr (reservedFor.trans reserved)

/-- A reservation that runs out has lasted the whole grace period. -/
theorem loses_of_lapse
    {task : TaskId}
    {timer : Timer}
    (fit : ReservationFits past m)
    (onTime : m.OnTime (.fire task))
    (scheduled : m.loop.timer? task = some timer)
    (body : timer.body = .reservationExpiry a)
    (reserved : m.reservedFor = some a) :
    Loses a past ⟨m, .fire task, after⟩ := by
  obtain ⟨earlier, closing, later, whole, closes, nobody, due⟩ :=
    fit a reserved
  refine .lapsed task earlier closing later rfl whole closes nobody ?_
  have sleeping := (EventLoop.mem_of_timer? scheduled).1
  exact (due timer sleeping body).trans (onTime timer scheduled)

/-- In one step of a timed run, an install keeps control or loses it in one of
the listed ways. -/
theorem holds_or_loses
    (roles : m.RolesFit)
    (fit : ReservationFits past m)
    (holds : m.Holds a)
    (onTime : m.OnTime op)
    (enabled : m.Enabled op)
    (branch : m.Transition op after todo) :
    after.Holds a ∨ Loses a past ⟨m, op, after⟩ := by
  cases id branch with
  | @reclaims ws params connectionId b carries reserved =>
      have same := holds.reserved (roles.vacant (by simp [reserved]))
      obtain rfl := Option.some.inj (reserved.symm.trans same)
      exact Or.inl (Or.inl ⟨ws, rfl, _, Dict.get?_insert_self _ _ _, carries⟩)
  | @supersedes ws old params connectionId b oldClient carries _ primary found
      oldCarries =>
      obtain ⟨client, stored, holder⟩ := holds.carries roles primary
      obtain ⟨later, laterFound, sameId, _⟩ :=
        client_persists enabled branch stored (by simp)
      obtain rfl := Option.some.inj (found.symm.trans laterFound)
      have same : some b = some a :=
        oldCarries.symm.trans (sameId.trans holder)
      obtain rfl := Option.some.inj same
      exact Or.inl (Or.inl ⟨ws, rfl, _, Dict.get?_insert_self _ _ _, carries⟩)
  | takesSlot empty unreserved =>
      rw [holds.reserved empty] at unreserved
      cases unreserved
  | leaves _ notPrimary =>
      refine Or.inl (holds.keeps enabled branch ?_ (by simp) (by simp))
      rintro ws primary same
      obtain rfl := Op.disconnect.inj same
      exact notPrimary primary
  | @handsBack ws sibling client siblingClient b stored primary carries _
      found siblingCarries =>
      obtain ⟨own, ownFound, holder⟩ := holds.carries roles primary
      obtain rfl := Option.some.inj (stored.symm.trans ownFound)
      obtain rfl := Option.some.inj (carries.symm.trans holder)
      refine Or.inl (Or.inl ⟨sibling, rfl, siblingClient, ?_, siblingCarries⟩)
      simpa using found
  | reserves stored primary carries =>
      obtain ⟨own, ownFound, holder⟩ := holds.carries roles primary
      obtain rfl := Option.some.inj (stored.symm.trans ownFound)
      exact Or.inl (Or.inr (carries.symm.trans holder))
  | empties stored primary anonymous =>
      obtain ⟨own, ownFound, holder⟩ := holds.carries roles primary
      obtain rfl := Option.some.inj (stored.symm.trans ownFound)
      rw [anonymous] at holder
      cases holder
  | requestTakesSlot _ _ empty unreserved =>
      rw [holds.reserved empty] at unreserved
      cases unreserved
  | @accepts ws request client primary pending found =>
      by_cases carries : m.Carries request.requester a
      · exact Or.inl (Or.inl ⟨request.requester, rfl, carries⟩)
      · exact Or.inr (.accepted ws request rfl primary
          (holds.carries roles primary) pending carries)
  | @grants ws target connectionId client primary _ _ found =>
      by_cases carries : m.Carries target a
      · exact Or.inl (Or.inl ⟨target, rfl, carries⟩)
      · exact Or.inr (.granted ws target connectionId rfl primary
          (holds.carries roles primary) rfl carries)
  | @releases ws | @releasesTo ws =>
      exact Or.inr (.released ws rfl enabled (holds.carries roles enabled))
  | slotEmpties scheduled body reserved =>
      have same := holds.reserved (roles.vacant (by simp [reserved]))
      obtain rfl := Option.some.inj (reserved.symm.trans same)
      exact Or.inr (loses_of_lapse fit onTime scheduled body reserved)
  | slotGranted scheduled body reserved vacant =>
      have same := holds.reserved vacant
      obtain rfl := Option.some.inj (reserved.symm.trans same)
      exact Or.inr (loses_of_lapse fit onTime scheduled body reserved)
  | absent missing =>
      exact absurd enabled (Dict.get?_eq_none_iff.mp missing)
  | _ => exact Or.inl (holds.keeps enabled branch (by simp) rfl rfl)

/-! ## Whole runs -/

/-- In every timed run, an install that holds control goes on to hold it, and
nobody else is primary, unless in between its primary released control or gave
it to another install, or a whole grace period passed without any of its
sockets. -/
theorem holds_or_loses_of_run
    (pastRun : Run timedExec {} past start)
    (run : Run timedExec start between finish)
    (holds : start.Holds a) :
    (finish.Holds a ∧ ∀ ws, finish.primary = some ws → finish.Carries ws a) ∨
      ∃ first step rest, between = first ++ step :: rest ∧
        Loses a (past ++ first) step := by
  have untimed : ∀ {middle finish : ConnectionManager} {steps},
      Run timedExec middle steps finish → Run exec middle steps finish :=
    fun timed => timed.mono fun _ _ _ taken => (timedExec_eq_some.mp taken).2
  suffices kept : finish.Holds a ∨
      ∃ first step rest, between = first ++ step :: rest ∧
        Loses a (past ++ first) step by
    refine kept.imp_left fun still => ⟨still, fun ws => ?_⟩
    have whole := (untimed pastRun).append (untimed run)
    exact still.carries (fits_of_reachable whole.reachable).1
  induction run with
  | nil => exact Or.inl holds
  | @snoc steps current after op earlier taken inductionHypothesis =>
      rcases inductionHypothesis with still | ⟨first, step, rest, rfl, loses⟩
      · have whole := (untimed pastRun).append (untimed earlier)
        have roles := (fits_of_reachable whole.reachable).1
        obtain ⟨onTime, untimedTaken⟩ := timedExec_eq_some.mp taken
        obtain ⟨enabled, todo, _, branch⟩ := transition_of_exec untimedTaken
        refine (holds_or_loses roles (reservationFits whole) still onTime
          enabled branch).imp_right fun loses => ?_
        exact ⟨steps, _, [], rfl, loses⟩
      · exact Or.inr ⟨first, step, rest ++ [⟨current, op, after⟩], by simp,
          loses⟩

/-- An install connects; its socket drops behind an observer's back and a new
one connects ten seconds later. -/
theorem holds_or_loses_of_run_reconnect :
    ∃ past start between finish,
      replay timedExec {}
        [.connect ⟨0⟩ ⟨some "2", some "stage", none⟩ "c0"] =
          some (past, start) ∧
      replay timedExec start
        [.connect ⟨1⟩ ⟨some "2", some "booth", none⟩ "c1",
          .disconnect ⟨0⟩,
          .wait 10,
          .connect ⟨2⟩ ⟨some "2", some "stage", some "primary"⟩ "c2"] =
          some (between, finish) ∧
      finish.primary = some ⟨2⟩ ∧
      ((finish.Holds ⟨"stage", by decide⟩ ∧ ∀ ws, finish.primary = some ws →
          finish.Carries ws ⟨"stage", by decide⟩) ∨
        ∃ first step rest, between = first ++ step :: rest ∧
          Loses ⟨"stage", by decide⟩ (past ++ first) step) := by
  have runs : ((replay timedExec {}
      [.connect ⟨0⟩ ⟨some "2", some "stage", none⟩ "c0"]).bind fun first =>
        (replay timedExec first.2
          [.connect ⟨1⟩ ⟨some "2", some "booth", none⟩ "c1",
            .disconnect ⟨0⟩,
            .wait 10,
            .connect ⟨2⟩ ⟨some "2", some "stage", some "primary"⟩ "c2"]).map
          fun second => decide (first.2.Holds ⟨"stage", by decide⟩ ∧
            second.2.primary = some ⟨2⟩)) = some true := by
    decide +kernel
  obtain ⟨⟨past, start⟩, first, rest⟩ := Option.bind_eq_some_iff.mp runs
  obtain ⟨⟨between, finish⟩, second, facts⟩ := Option.map_eq_some_iff.mp rest
  obtain ⟨holds, primary⟩ := of_decide_eq_true facts
  exact ⟨past, start, between, finish, first, second, primary,
    holds_or_loses_of_run (run_of_replay first) (run_of_replay second) holds⟩

end ConnectionManager
end AbletonTracks
