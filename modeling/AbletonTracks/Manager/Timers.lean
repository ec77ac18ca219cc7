import AbletonTracks.Manager.Transitions

/-!
# Timers match the reservation and the request

The slot's reservation and the pending request each own exactly one sleeping
timer task, and no other task sleeps.  `EventLoop.Owned` says so for one kind
of timer; creating and cancelling tasks move between its two cases.
-/

namespace AbletonTracks

open Library

namespace TimerBody

/-- The timer of a held slot. -/
def isReservation : TimerBody → Bool
  | .reservationExpiry _ => true
  | .requestExpiry _ => false

/-- The timer of a control request. -/
def isRequest : TimerBody → Bool
  | .reservationExpiry _ => false
  | .requestExpiry _ => true

end TimerBody

namespace EventLoop

variable {loop : EventLoop} {kind : TimerBody → Bool}

/-- The sleeping timers of one kind. -/
def timersOf (loop : EventLoop) (kind : TimerBody → Bool) : List Timer :=
  loop.timers.filter fun timer => kind timer.body

/-- Task ids are never reused. -/
structure WellFormed (loop : EventLoop) : Prop where
  tasksNodup : (loop.timers.map Timer.task).Nodup
  tasksBelow : ∀ timer ∈ loop.timers, timer.task < loop.nextTask

/-- The sleeping timers of one kind are exactly the owner's, if any. -/
def Owned (loop : EventLoop) (kind : TimerBody → Bool) :
    Option (TaskId × TimerBody) → Prop
  | none => loop.timersOf kind = []
  | some (task, body) =>
      kind body = true ∧ ∃ due, loop.timersOf kind = [⟨task, due, body⟩]

theorem mem_of_timer?
    {task : TaskId}
    {timer : Timer}
    (scheduled : loop.timer? task = some timer) :
    timer ∈ loop.timers ∧ timer.task = task :=
  ⟨List.mem_of_find?_eq_some scheduled, by
    simpa using List.find?_some scheduled⟩

theorem mem_timersOf {timer : Timer} :
    timer ∈ loop.timersOf kind ↔
      timer ∈ loop.timers ∧ kind timer.body = true :=
  List.mem_filter

/-- A sleeping timer belongs to the owner of its kind. -/
theorem Owned.of_mem
    {owner : Option (TaskId × TimerBody)}
    {timer : Timer}
    (owned : loop.Owned kind owner)
    (sleeping : timer ∈ loop.timers)
    (sameKind : kind timer.body = true) :
    owner = some (timer.task, timer.body) := by
  have member : timer ∈ loop.timersOf kind :=
    mem_timersOf.mpr ⟨sleeping, sameKind⟩
  cases owner with
  | none =>
      rw [show loop.timersOf kind = [] from owned] at member
      simp at member
  | some pair =>
      obtain ⟨task, body⟩ := pair
      obtain ⟨_, due, only⟩ := owned
      rw [only, List.mem_singleton] at member
      rw [member]

theorem Owned.exists_timer
    {task : TaskId}
    {body : TimerBody}
    (owned : loop.Owned kind (some (task, body))) :
    ∃ due, (⟨task, due, body⟩ : Timer) ∈ loop.timers := by
  obtain ⟨_, due, only⟩ := owned
  have member : ⟨task, due, body⟩ ∈ loop.timersOf kind := by
    rw [only]
    exact List.mem_singleton_self _
  exact ⟨due, (mem_timersOf.mp member).1⟩

/-! ## Creating and cancelling tasks -/

theorem WellFormed.createTask
    (formed : loop.WellFormed)
    (delay : ℚ)
    (body : TimerBody) :
    (loop.createTask delay body).WellFormed where
  tasksNodup := by
    simp only [EventLoop.createTask, List.map_append, List.map_cons,
      List.map_nil]
    refine List.Nodup.append formed.tasksNodup (List.nodup_singleton _) ?_
    rw [List.disjoint_singleton]
    intro member
    obtain ⟨timer, sleeping, same⟩ := List.mem_map.mp member
    have below := formed.tasksBelow timer sleeping
    rw [same] at below
    exact Nat.lt_irrefl _ below
  tasksBelow := by
    intro timer member
    simp only [EventLoop.createTask, List.mem_append,
      List.mem_singleton] at member ⊢
    rcases member with sleeping | rfl
    · exact Nat.lt_succ_of_lt (formed.tasksBelow timer sleeping)
    · exact Nat.lt_succ_self _

theorem WellFormed.cancel
    (formed : loop.WellFormed)
    (task : Option TaskId) :
    (loop.cancel task).WellFormed := by
  cases task with
  | none => exact formed
  | some task =>
      exact
        { tasksNodup :=
            formed.tasksNodup.sublist (List.filter_sublist.map Timer.task)
          tasksBelow := fun timer member =>
            formed.tasksBelow timer (List.mem_of_mem_filter member) }

theorem timersOf_createTask (delay : ℚ) (body : TimerBody) :
    (loop.createTask delay body).timersOf kind =
      loop.timersOf kind ++
        if kind body then [⟨loop.nextTask, loop.time + delay, body⟩]
        else [] := by
  simp only [timersOf, createTask, List.filter_append]
  cases kindBody : kind body <;> simp [kindBody]

theorem timersOf_cancel (task : TaskId) :
    (loop.cancel (some task)).timersOf kind =
      (loop.timersOf kind).filter fun timer => timer.task ≠ task := by
  simp only [timersOf, cancel, List.filter_filter]
  refine List.filter_congr fun timer _ => ?_
  rw [Bool.and_comm]

/-- A new task of an unowned kind gets an owner. -/
theorem Owned.createTask_self
    (owned : loop.Owned kind none)
    (delay : ℚ)
    {body : TimerBody}
    (sameKind : kind body = true) :
    (loop.createTask delay body).Owned kind
      (some (loop.nextTask, body)) := by
  refine ⟨sameKind, loop.time + delay, ?_⟩
  rw [timersOf_createTask, show loop.timersOf kind = [] from owned, sameKind]
  rfl

/-- A new task of another kind changes nothing. -/
theorem Owned.createTask_other
    {owner : Option (TaskId × TimerBody)}
    (owned : loop.Owned kind owner)
    (delay : ℚ)
    {body : TimerBody}
    (otherKind : kind body = false) :
    (loop.createTask delay body).Owned kind owner := by
  have unchanged :
      (loop.createTask delay body).timersOf kind = loop.timersOf kind := by
    rw [timersOf_createTask, otherKind]
    simp
  cases owner with
  | none => exact unchanged.trans owned
  | some pair =>
      obtain ⟨sameKind, due, only⟩ := owned
      exact ⟨sameKind, due, unchanged.trans only⟩

/-- Cancelling the owner's task leaves the kind unowned. -/
theorem Owned.cancel_self
    {task : TaskId}
    {body : TimerBody}
    (owned : loop.Owned kind (some (task, body))) :
    (loop.cancel (some task)).Owned kind none := by
  obtain ⟨_, due, only⟩ := owned
  change (loop.cancel (some task)).timersOf kind = []
  rw [timersOf_cancel, only]
  simp

/-- Cancelling a task of another kind changes nothing. -/
theorem Owned.cancel_other
    {owner : Option (TaskId × TimerBody)}
    {task : TaskId}
    (owned : loop.Owned kind owner)
    (otherKind : ∀ timer ∈ loop.timers, timer.task = task →
      kind timer.body = false) :
    (loop.cancel (some task)).Owned kind owner := by
  have unchanged :
      (loop.cancel (some task)).timersOf kind = loop.timersOf kind := by
    rw [timersOf_cancel, List.filter_eq_self]
    intro timer member
    obtain ⟨sleeping, sameKind⟩ := mem_timersOf.mp member
    rw [decide_eq_true_eq]
    intro same
    rw [otherKind timer sleeping same] at sameKind
    cases sameKind
  cases owner with
  | none => exact unchanged.trans owned
  | some pair =>
      obtain ⟨sameKind, due, only⟩ := owned
      exact ⟨sameKind, due, unchanged.trans only⟩

/-- Two sleeping timers with one task id are the same timer. -/
theorem WellFormed.body_eq
    (formed : loop.WellFormed)
    {first second : Timer}
    (firstSleeping : first ∈ loop.timers)
    (secondSleeping : second ∈ loop.timers)
    (same : first.task = second.task) :
    first = second :=
  List.inj_on_of_nodup_map formed.tasksNodup firstSleeping secondSleeping same

end EventLoop

namespace ConnectionManager

variable {m : ConnectionManager}

/-- The task and body of the timer that a held slot owns. -/
def reservationOwner (m : ConnectionManager) : Option (TaskId × TimerBody) :=
  m.reservedFor.bind fun a =>
    m.reserveTimer.map fun task => (task, .reservationExpiry a)

/-- The task and body of the timer that a pending request owns. -/
def requestOwner (m : ConnectionManager) : Option (TaskId × TimerBody) :=
  m.request.bind fun request =>
    request.timer.map fun task => (task, .requestExpiry request.requestId)

/-- The sleeping timers are those of the reservation and of the request. -/
structure TimersFit (m : ConnectionManager) : Prop where
  formed : m.loop.WellFormed
  held : m.reservedFor = none ↔ m.reserveTimer = none
  timed : ∀ request, m.request = some request → request.timer ≠ none
  reservation : m.loop.Owned TimerBody.isReservation m.reservationOwner
  request : m.loop.Owned TimerBody.isRequest m.requestOwner

theorem timersFit_initial : TimersFit {} where
  formed := ⟨List.nodup_nil, by simp⟩
  held := by simp
  timed := by simp
  reservation := rfl
  request := rfl

namespace TimersFit

/-- A held slot knows the task of its timer. -/
theorem reservationOwner_eq
    (fits : m.TimersFit)
    {a : ClientId}
    (reserved : m.reservedFor = some a) :
    ∃ task, m.reserveTimer = some task ∧
      m.reservationOwner = some (task, .reservationExpiry a) := by
  have present : m.reserveTimer ≠ none := by
    rw [Ne, ← fits.held, reserved]
    simp
  obtain ⟨task, timed⟩ := Option.ne_none_iff_exists'.mp present
  exact ⟨task, timed, by simp [reservationOwner, reserved, timed]⟩

/-- A pending request knows the task of its timer. -/
theorem requestOwner_eq
    (fits : m.TimersFit)
    {request : Request}
    (pending : m.request = some request) :
    ∃ task, request.timer = some task ∧
      m.requestOwner = some (task, .requestExpiry request.requestId) := by
  obtain ⟨task, timed⟩ :=
    Option.ne_none_iff_exists'.mp (fits.timed request pending)
  exact ⟨task, timed, by simp [requestOwner, pending, timed]⟩

/-- A sleeping reservation timer was started for the current reservation. -/
theorem reserved_of_sleeping
    (fits : m.TimersFit)
    {timer : Timer}
    {a : ClientId}
    (sleeping : timer ∈ m.loop.timers)
    (body : timer.body = .reservationExpiry a) :
    m.reservedFor = some a ∧ m.reserveTimer = some timer.task := by
  have owner := fits.reservation.of_mem sleeping
    (by rw [body]; rfl)
  simp only [reservationOwner, body, Option.bind_eq_some_iff,
    Option.map_eq_some_iff, Prod.mk.injEq,
    TimerBody.reservationExpiry.injEq] at owner
  obtain ⟨other, reserved, task, timed, rfl, rfl⟩ := owner
  exact ⟨reserved, timed⟩

/-- A sleeping request timer was started for the pending request. -/
theorem pending_of_sleeping
    (fits : m.TimersFit)
    {timer : Timer}
    {requestId : String}
    (sleeping : timer ∈ m.loop.timers)
    (body : timer.body = .requestExpiry requestId) :
    ∃ request, m.request = some request ∧
      request.requestId = requestId ∧ request.timer = some timer.task := by
  have owner := fits.request.of_mem sleeping (by rw [body]; rfl)
  simp only [requestOwner, body, Option.bind_eq_some_iff,
    Option.map_eq_some_iff, Prod.mk.injEq,
    TimerBody.requestExpiry.injEq] at owner
  obtain ⟨request, pending, task, timed, rfl, same⟩ := owner
  exact ⟨request, pending, same, timed⟩

/-- The request's own timer is no reservation timer. -/
theorem requestTimer_kind
    (fits : m.TimersFit)
    {task : TaskId}
    {body : TimerBody}
    (owner : m.requestOwner = some (task, body)) :
    ∀ timer ∈ m.loop.timers, timer.task = task →
      timer.body.isReservation = false := by
  intro timer sleeping same
  have owned := fits.request
  rw [owner] at owned
  obtain ⟨due, ownSleeping⟩ := owned.exists_timer
  have equal := fits.formed.body_eq sleeping ownSleeping same
  have kind : body.isRequest = true := owned.1
  rw [equal]
  cases body with
  | reservationExpiry a => cases kind
  | requestExpiry requestId => rfl

/-- The reservation's own timer is no request timer. -/
theorem reservationTimer_kind
    (fits : m.TimersFit)
    {task : TaskId}
    {body : TimerBody}
    (owner : m.reservationOwner = some (task, body)) :
    ∀ timer ∈ m.loop.timers, timer.task = task →
      timer.body.isRequest = false := by
  intro timer sleeping same
  have owned := fits.reservation
  rw [owner] at owned
  obtain ⟨due, ownSleeping⟩ := owned.exists_timer
  have equal := fits.formed.body_eq sleeping ownSleeping same
  have kind : body.isReservation = true := owned.1
  rw [equal]
  cases body with
  | reservationExpiry a => rfl
  | requestExpiry requestId => cases kind

/-! ## Preservation by the building blocks -/

/-- Only the loop, the reservation and the request matter. -/
theorem congr
    {other : ConnectionManager}
    (fits : m.TimersFit)
    (loop : other.loop = m.loop)
    (reservedFor : other.reservedFor = m.reservedFor)
    (reserveTimer : other.reserveTimer = m.reserveTimer)
    (request : other.request = m.request) :
    other.TimersFit where
  formed := loop ▸ fits.formed
  held := by rw [reservedFor, reserveTimer]; exact fits.held
  timed := by rw [request]; exact fits.timed
  reservation := by
    rw [loop, reservationOwner, reservedFor, reserveTimer]
    exact fits.reservation
  request := by
    rw [loop, requestOwner, request]
    exact fits.request

theorem endReservation (fits : m.TimersFit) : m.endReservation.TimersFit := by
  cases reserved : m.reservedFor with
  | none =>
      have untimed := fits.held.mp reserved
      refine fits.congr ?_ ?_ ?_ rfl
      · simp [untimed, EventLoop.cancel]
      · simp [reserved]
      · simp [untimed]
  | some a =>
      obtain ⟨task, timed, owner⟩ := fits.reservationOwner_eq reserved
      have owned := fits.reservation
      rw [owner] at owned
      exact
        { formed := fits.formed.cancel _
          held := by simp
          timed := fits.timed
          reservation := by
            rw [endReservation_loop, timed]
            exact owned.cancel_self
          request := by
            rw [endReservation_loop, timed]
            exact fits.request.cancel_other
              (fits.reservationTimer_kind owner) }

theorem startReservation
    (fits : m.TimersFit)
    (a : ClientId) :
    (m.startReservation a).TimersFit := by
  have ended := fits.endReservation
  exact
    { formed := ended.formed.createTask _ _
      held := by simp [ConnectionManager.startReservation]
      timed := fits.timed
      reservation :=
        EventLoop.Owned.createTask_self ended.reservation reclaimGrace rfl
      request := ended.request.createTask_other reclaimGrace rfl }

theorem clearRequest (fits : m.TimersFit) : m.clearRequest.TimersFit := by
  cases pending : m.request with
  | none =>
      refine fits.congr ?_ rfl rfl ?_
      · simp [pending, EventLoop.cancel]
      · simp [pending]
  | some request =>
      obtain ⟨task, timed, owner⟩ := fits.requestOwner_eq pending
      have owned := fits.request
      rw [owner] at owned
      have loop : m.clearRequest.loop = m.loop.cancel (some task) := by
        simp [pending, timed]
      exact
        { formed := fits.formed.cancel _
          held := fits.held
          timed := by simp
          reservation := by
            rw [loop]
            exact fits.reservation.cancel_other (fits.requestTimer_kind owner)
          request := by
            rw [loop]
            exact owned.cancel_self }

theorem forget
    (fits : m.TimersFit)
    (ws : WebSocket) :
    (m.forget ws).TimersFit := by
  have erased : TimersFit { m with clients := m.clients.erase ws } :=
    fits.congr rfl rfl rfl rfl
  simp only [ConnectionManager.forget]
  split
  · exact erased.clearRequest
  · exact erased

/-- The reservation timer has fired and its reservation is dropped. -/
theorem dropReservation
    (fits : m.TimersFit)
    {timer : Timer}
    {a : ClientId}
    (scheduled : m.loop.timer? timer.task = some timer)
    (body : timer.body = .reservationExpiry a) :
    TimersFit { m with
      loop := m.loop.cancel (some timer.task)
      reserveTimer := none
      reservedFor := none } := by
  have sleeping := (EventLoop.mem_of_timer? scheduled).1
  have timed := (fits.reserved_of_sleeping sleeping body).2
  exact fits.endReservation.congr
    (by rw [endReservation_loop, timed]) rfl rfl rfl

/-- A request's timer has fired and the request is dropped. -/
theorem dropRequest
    (fits : m.TimersFit)
    {timer : Timer}
    {requestId : String}
    (scheduled : m.loop.timer? timer.task = some timer)
    (body : timer.body = .requestExpiry requestId) :
    TimersFit { m with
      loop := m.loop.cancel (some timer.task)
      request := none } := by
  have sleeping := (EventLoop.mem_of_timer? scheduled).1
  obtain ⟨request, pending, _, timed⟩ :=
    fits.pending_of_sleeping sleeping body
  exact fits.clearRequest.congr
    (by simp [pending, timed]) rfl rfl rfl

/-- A request becomes pending. -/
theorem addRequest
    (fits : m.TimersFit)
    (idle : m.request = none)
    (ws : WebSocket)
    (requestId : String)
    (expiresAt : ℚ) :
    TimersFit { m with
      request := some ⟨requestId, ws, expiresAt, some m.loop.nextTask⟩
      loop := m.loop.createTask requestTimeout (.requestExpiry requestId) }
    where
  formed := fits.formed.createTask _ _
  held := fits.held
  timed := by
    intro request pending
    obtain rfl := Option.some.inj pending
    simp
  reservation := fits.reservation.createTask_other requestTimeout rfl
  request := by
    have unowned : m.loop.Owned TimerBody.isRequest none := by
      have owned := fits.request
      rwa [requestOwner, idle] at owned
    exact unowned.createTask_self requestTimeout rfl

/-- Every branch of every operation keeps the timers matched. -/
theorem transition
    {after : ConnectionManager}
    {op : Op}
    {todo : List Todo}
    (fits : m.TimersFit)
    (branch : m.Transition op after todo) :
    after.TimersFit := by
  cases branch with
  | reclaims carries reserved =>
      exact fits.endReservation.congr rfl rfl rfl rfl
  | supersedes => exact fits.congr rfl rfl rfl rfl
  | takesSlot => exact fits.congr rfl rfl rfl rfl
  | observes => exact fits.congr rfl rfl rfl rfl
  | renames => exact fits.congr rfl rfl rfl rfl
  | absent => exact fits
  | leaves => exact fits.forget _
  | handsBack => exact (fits.forget _).congr rfl rfl rfl rfl
  | @reserves ws =>
      have emptied : TimersFit { m.forget ws with primary := none } :=
        (fits.forget ws).congr rfl rfl rfl rfl
      exact emptied.startReservation _
  | empties => exact (fits.forget _).congr rfl rfl rfl rfl
  | requestIgnored => exact fits
  | requestRepeated => exact fits
  | requestBusy => exact fits
  | requestTakesSlot => exact fits.congr rfl rfl rfl rfl
  | requestRefused => exact fits
  | requestPends _ _ idle => exact fits.addRequest idle _ _ _
  | cancelIgnored => exact fits
  | withdraws => exact fits.clearRequest
  | respondIgnored => exact fits
  | respondStale => exact fits
  | accepts => exact fits.clearRequest.congr rfl rfl rfl rfl
  | denies => exact fits.clearRequest
  | grantIgnored => exact fits
  | grants => exact fits.clearRequest.congr rfl rfl rfl rfl
  | releases => exact fits.clearRequest.congr rfl rfl rfl rfl
  | releasesTo => exact fits.clearRequest.congr rfl rfl rfl rfl
  | unscheduled => exact fits
  | @outlived task timer scheduled noReservation noRequest =>
      -- A sleeping timer never outlives what it was started for.
      obtain ⟨sleeping, rfl⟩ := EventLoop.mem_of_timer? scheduled
      cases body : timer.body with
      | reservationExpiry a =>
          exact absurd (fits.reserved_of_sleeping sleeping body).1
            (noReservation a body)
      | requestExpiry requestId =>
          obtain ⟨request, pending, same, _⟩ :=
            fits.pending_of_sleeping sleeping body
          exact absurd same (noRequest requestId request body pending)
  | slotEmpties scheduled body =>
      obtain rfl := (EventLoop.mem_of_timer? scheduled).2
      exact fits.dropReservation scheduled body
  | slotGranted scheduled body reserved primaryGone pending =>
      obtain rfl := (EventLoop.mem_of_timer? scheduled).2
      exact (fits.dropReservation scheduled body).clearRequest.congr
        (by simp [pending]) rfl rfl rfl
  | requestExpires scheduled body =>
      obtain rfl := (EventLoop.mem_of_timer? scheduled).2
      exact fits.dropRequest scheduled body
  | waits =>
      exact
        { formed := ⟨fits.formed.tasksNodup, fits.formed.tasksBelow⟩
          held := fits.held
          timed := fits.timed
          reservation := fits.reservation
          request := fits.request }

end TimersFit
end ConnectionManager
end AbletonTracks
