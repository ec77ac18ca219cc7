import AbletonTracks.Manager.Invariant

/-!
# The manager is consistent in every reachable state

`RolesFit` and `TimersFit` together give `FitsTogether`: the roles, the
reservation, the request and the timers fit together, every `self._clients`
lookup succeeds, and the roster lists exactly the connected devices.
-/

namespace AbletonTracks

open Library

namespace ConnectionManager

variable {m after : ConnectionManager} {op : Op} {todo : List Todo}

/-! ## No lookup fails -/

/-- What an operation may leave to do: the one lookup without a guard
succeeds, and the bridge's own broadcasts are none of the manager's. -/
def Safe (m : ConnectionManager) : Todo → Prop
  | .sendState ws => ws ∈ m.clients
  | .broadcast _ | .deliver _ _ | .broadcastFullState | .sendSnapshot _ => False
  | _ => True

theorem snapshotFor_of_mem
    {ws : WebSocket}
    (present : ws ∈ m.clients)
    (app : AppState)
    (roleReason : Option RoleReason) :
    ∃ message, m.snapshotFor app ws roleReason = .ok message := by
  obtain ⟨client, found⟩ := Dict.mem_iff_exists_get?.mp present
  exact ⟨_, by
    simp only [snapshotFor, lookup_of_get? found]
    rfl⟩

theorem framesOf_of_safe
    {entry : Todo}
    (safe : m.Safe entry)
    (app : AppState) :
    ∃ frames, m.framesOf app entry = .ok frames := by
  cases entry with
  | push ws reason =>
      by_cases present : ws ∈ m.clients
      · obtain ⟨message, built⟩ := snapshotFor_of_mem present app (some reason)
        refine ⟨[⟨ws, message⟩], ?_⟩
        simp only [framesOf, if_pos present, built]
        rfl
      · exact ⟨[], by simp only [framesOf, if_neg present]⟩
  | sendState ws =>
      obtain ⟨message, built⟩ := snapshotFor_of_mem safe app none
      refine ⟨[⟨ws, message⟩], ?_⟩
      simp only [framesOf, built]
      rfl
  | broadcastHandoff => exact ⟨_, rfl⟩
  | broadcastRoster => exact ⟨_, rfl⟩
  | sendHandoff => exact ⟨_, rfl⟩
  | sendResult => exact ⟨_, rfl⟩
  | sendReleased => exact ⟨_, rfl⟩
  | broadcast | deliver | broadcastFullState | sendSnapshot =>
      exact safe.elim

theorem flush_of_safe
    (safe : ∀ entry ∈ todo, m.Safe entry)
    (app : AppState) :
    ∃ frames, m.flush app todo = .ok frames := by
  induction todo with
  | nil => exact ⟨[], rfl⟩
  | cons entry rest inductionHypothesis =>
      obtain ⟨first, built⟩ :=
        framesOf_of_safe (safe entry List.mem_cons_self) app
      obtain ⟨others, restBuilt⟩ := inductionHypothesis fun other member =>
        safe other (List.mem_cons_of_mem entry member)
      refine ⟨first ++ others, ?_⟩
      simp only [flush, built, restBuilt]
      rfl

/-- Announcing role changes looks nothing up without a guard. -/
theorem safe_of_mem_announce
    {changes : Changes}
    {entry : Todo}
    (member : entry ∈ announce changes) :
    m.Safe entry := by
  simp only [announce, List.mem_append, List.mem_map, List.mem_cons,
    List.not_mem_nil, or_false] at member
  rcases member with ⟨change, _, rfl⟩ | rfl | rfl <;> exact trivial

theorem safe_of_mem_passedOver
    {target : WebSocket}
    {entry : Todo}
    (member : entry ∈ m.passedOver target) :
    after.Safe entry := by
  obtain ⟨request, _, rfl⟩ := List.mem_map.mp member
  exact trivial

/-- What an operation still has to do looks nothing up in vain. -/
theorem Transition.safe
    (branch : m.Transition op after todo) :
    ∀ entry ∈ todo, after.Safe entry := by
  have connects : ∀ (ws : WebSocket) (changes : Changes),
      ws ∈ after.clients → ∀ entry ∈ Todo.sendState ws :: announce changes,
        after.Safe entry := by
    intro ws changes present entry member
    rcases List.mem_cons.mp member with rfl | announced
    · exact present
    · exact safe_of_mem_announce announced
  intro entry member
  cases branch with
  | reclaims | supersedes | takesSlot | observes =>
      refine connects _ _ ?_ entry member
      exact Dict.mem_insert.mpr (Or.inl rfl)
  | absent | leaves | handsBack | reserves | empties | requestTakesSlot
  | accepts | slotGranted =>
      exact safe_of_mem_announce member
  | grants =>
      rcases List.mem_append.mp member with passed | announced
      · exact safe_of_mem_passedOver passed
      · exact safe_of_mem_announce announced
  | releases | releasesTo =>
      rcases List.mem_append.mp member with goodbye | announced
      · obtain ⟨ws, _, rfl⟩ := List.mem_map.mp goodbye
        exact trivial
      · exact safe_of_mem_announce announced
  | renames | requestRepeated | requestBusy | requestRefused | requestPends
  | respondStale =>
      obtain rfl := List.mem_singleton.mp member
      exact trivial
  | withdraws | denies | requestExpires =>
      simp only [List.mem_cons, List.not_mem_nil, or_false] at member
      rcases member with rfl | rfl <;> exact trivial
  | requestIgnored | cancelIgnored | respondIgnored | grantIgnored
  | unscheduled | outlived | slotEmpties | waits =>
      cases member

/-! ## No operation raises -/

theorem lookup_of_mem
    {ws : WebSocket}
    (present : ws ∈ m.clients) :
    ∃ client, m.lookup ws = .ok client := by
  obtain ⟨client, found⟩ := Dict.mem_iff_exists_get?.mp present
  exact ⟨client, lookup_of_get? found⟩

theorem disconnect_isOk (ws : WebSocket) :
    ∃ result, m.disconnect ws = .ok result := by
  unfold disconnect
  split
  · exact ⟨_, rfl⟩
  rename_i client stored
  simp only
  split
  · exact ⟨_, rfl⟩
  split
  · rename_i sibling siblingFound
    obtain ⟨other, found, _⟩ := Dict.get?_of_findKey? siblingFound
    rw [lookup_of_get? found]
    exact ⟨_, rfl⟩
  · split <;> exact ⟨_, rfl⟩

theorem requestControl_isOk
    (ws : WebSocket)
    (requestId : String) :
    ∃ result, m.requestControl ws requestId = .ok result := by
  unfold requestControl
  split
  · exact ⟨_, rfl⟩
  rename_i eligible
  simp only [not_or, Bool.not_eq_false] at eligible
  obtain ⟨client, found⟩ := lookup_of_mem (mem_of_supportsHandoff eligible.2)
  rw [found]
  split
  · split <;> exact ⟨_, rfl⟩
  · split
    · exact ⟨_, rfl⟩
    · split <;> exact ⟨_, rfl⟩

theorem transfer_isOk
    {target : WebSocket}
    (present : target ∈ m.clients)
    (reason : RoleReason) :
    ∃ result, m.transfer target reason = .ok result := by
  obtain ⟨client, found⟩ := lookup_of_mem present
  unfold transfer
  rw [found]
  exact ⟨_, rfl⟩

theorem respond_isOk
    (fits : m.RolesFit)
    (ws : WebSocket)
    (requestId : String)
    (accept : Bool) :
    ∃ result, m.respond ws requestId accept = .ok result := by
  unfold respond
  split
  · exact ⟨_, rfl⟩
  split
  · exact ⟨_, rfl⟩
  rename_i request pending
  split
  · exact ⟨_, rfl⟩
  split
  · have present := mem_of_supportsHandoff (fits.requester request pending)
    obtain ⟨result, transferred⟩ :=
      transfer_isOk (m := m.clearRequest) present .requestAccepted
    rw [transferred]
    exact ⟨_, rfl⟩
  · exact ⟨_, rfl⟩

theorem grant_isOk
    (ws : WebSocket)
    (connectionId : String) :
    ∃ result, m.grant ws connectionId = .ok result := by
  unfold grant
  split
  · exact ⟨_, rfl⟩
  split
  · exact ⟨_, rfl⟩
  rename_i target _
  split
  · exact ⟨_, rfl⟩
  rename_i proper
  simp only [not_or, Bool.not_eq_false] at proper
  obtain ⟨result, transferred⟩ := transfer_isOk (m := m.clearRequest)
    (mem_of_supportsHandoff proper.2) .granted
  simp only [transferred]
  exact ⟨_, rfl⟩

theorem fire_isOk
    (fits : m.RolesFit)
    (task : TaskId) :
    ∃ result, m.fire task = .ok result := by
  unfold fire
  split
  · exact ⟨_, rfl⟩
  simp only
  split
  · unfold reservationExpiry
    split
    · exact ⟨_, rfl⟩
    simp only
    split
    · rename_i request _ pending
      have present := mem_of_supportsHandoff (fits.requester request pending)
      obtain ⟨client, found⟩ := Dict.mem_iff_exists_get?.mp present
      simp only [lookup, clearRequest_clients, found]
      exact ⟨_, rfl⟩
    · exact ⟨_, rfl⟩
  · exact ⟨_, rfl⟩

/-- In a state whose roles fit, no enabled operation raises. -/
theorem apply_isOk
    (fits : m.RolesFit)
    (enabled : m.Enabled op) :
    ∃ after todo, m.apply op = .ok (after, todo) := by
  have fromMethod :
      ∀ {result : Except KeyError (ConnectionManager × List Todo)},
      (∃ pair, result = .ok pair) →
      ∃ after todo, result = .ok (after, todo) :=
    fun ⟨pair, equal⟩ => ⟨pair.1, pair.2, equal⟩
  cases op with
  | connect ws params connectionId => exact ⟨_, _, rfl⟩
  | setName ws name =>
      obtain ⟨client, found⟩ := lookup_of_mem enabled
      exact ⟨_, _, by
        simp only [apply, setName, found]
        rfl⟩
  | disconnect ws =>
      obtain ⟨result, disconnected⟩ := disconnect_isOk (m := m) ws
      exact ⟨_, _, by
        simp only [apply, disconnected]
        rfl⟩
  | requestControl ws requestId =>
      exact fromMethod (requestControl_isOk ws requestId)
  | cancelRequest ws => exact ⟨_, _, rfl⟩
  | respond ws requestId accept =>
      exact fromMethod (respond_isOk fits ws requestId accept)
  | grant ws connectionId => exact fromMethod (grant_isOk ws connectionId)
  | release ws => exact ⟨_, _, rfl⟩
  | fire task => exact fromMethod (fire_isOk fits task)
  | wait time => exact ⟨_, _, rfl⟩

/-! ## The roster -/

/-- The roster lists the connected devices in an order that starts with the
primary. -/
theorem roster_lists (fits : m.RolesFit) :
    ∃ ordered, ordered.Perm m.clients.entries ∧
      m.roster = ordered.map m.device ∧
      ∀ ws, m.primary = some ws →
        ∃ client rest, ordered = (ws, client) :: rest := by
  refine ⟨_, sortedBy_perm _ _, rfl, ?_⟩
  intro ws primary
  obtain ⟨client, found⟩ :=
    Dict.mem_iff_exists_get?.mp (fits.connected ws primary)
  have stored := Dict.mem_entries_iff.mpr found
  rw [sortedBy_bool]
  cases first : m.clients.entries.filter fun item =>
      !decide (m.primary ≠ some item.1) with
  | nil =>
      have absent := List.filter_eq_nil_iff.mp first _ stored
      simp [primary] at absent
  | cons item rest =>
      have member : item ∈ item :: rest := List.mem_cons_self
      rw [← first, List.mem_filter] at member
      have same : item.1 = ws := by simpa [primary, eq_comm] using member.2
      exact ⟨item.2, _, by rw [List.cons_append, ← same]⟩

/-! ## Consistency -/

/-- The manager's roles, reservation, request and timers fit together. -/
structure FitsTogether (m : ConnectionManager) : Prop where
  primary : ∀ ws, m.primary = some ws → ws ∈ m.clients
  requester : ∀ request, m.request = some request →
    request.requester ∈ m.clients ∧
      m.supportsHandoff request.requester = true
  reservation : ∀ a, m.reservedFor = some a →
    m.primary = none ∧ ∀ ws client, m.clients.get? ws = some client →
      client.clientId ≠ some a
  /-- The only reservation timer was started for the reserved id. -/
  reservationTimer : ∀ a, m.reservedFor = some a →
    ∃ timer, m.loop.timersOf TimerBody.isReservation = [timer] ∧
      timer.body = .reservationExpiry a
  noReservationTimer : m.reservedFor = none →
    m.loop.timersOf TimerBody.isReservation = []
  /-- The only request timer carries the pending request's id. -/
  requestTimer : ∀ request, m.request = some request →
    ∃ timer, m.loop.timersOf TimerBody.isRequest = [timer] ∧
      timer.body = .requestExpiry request.requestId
  noRequestTimer : m.request = none →
    m.loop.timersOf TimerBody.isRequest = []
  /-- No lookup fails, neither in an operation nor in the sends after it. -/
  lookups : ∀ op, m.Enabled op → ∀ app, ∃ after todo frames,
    m.apply op = .ok (after, todo) ∧ after.flush app todo = .ok frames
  roster : ∃ ordered, ordered.Perm m.clients.entries ∧
    m.roster = ordered.map m.device ∧
    ∀ ws, m.primary = some ws →
      ∃ client rest, ordered = (ws, client) :: rest

theorem RolesFit.fitsTogether
    (roles : m.RolesFit)
    (timers : m.TimersFit) :
    m.FitsTogether where
  primary := roles.connected
  requester := fun request pending =>
    ⟨mem_of_supportsHandoff (roles.requester request pending),
      roles.requester request pending⟩
  reservation := fun a reserved =>
    ⟨roles.vacant (by simp [reserved]), roles.away a reserved⟩
  reservationTimer := by
    intro a reserved
    obtain ⟨task, _, owner⟩ := timers.reservationOwner_eq reserved
    have owned := timers.reservation
    rw [owner] at owned
    obtain ⟨_, due, only⟩ := owned
    exact ⟨_, only, rfl⟩
  noReservationTimer := by
    intro unreserved
    have owned := timers.reservation
    rwa [reservationOwner, unreserved] at owned
  requestTimer := by
    intro request pending
    obtain ⟨task, _, owner⟩ := timers.requestOwner_eq pending
    have owned := timers.request
    rw [owner] at owned
    obtain ⟨_, due, only⟩ := owned
    exact ⟨_, only, rfl⟩
  noRequestTimer := by
    intro idle
    have owned := timers.request
    rwa [requestOwner, idle] at owned
  lookups := by
    intro op enabled app
    obtain ⟨after, todo, applied⟩ := apply_isOk roles enabled
    obtain ⟨frames, flushed⟩ :=
      flush_of_safe (transition_of_apply applied).safe app
    exact ⟨after, todo, frames, applied, flushed⟩
  roster := roster_lists roles

/-- The machine keeps roles and timers in order. -/
theorem fits_of_reachable
    (reachable : Reachable exec {} m) :
    m.RolesFit ∧ m.TimersFit := by
  refine reachable.invariant (fun m => m.RolesFit ∧ m.TimersFit)
    ⟨rolesFit_initial, timersFit_initial⟩ ?_
  rintro current op after ⟨roles, timers⟩ taken
  obtain ⟨enabled, todo, _, branch⟩ := transition_of_exec taken
  exact ⟨roles.transition enabled branch, timers.transition branch⟩

/-- In every reachable state the manager's fields fit together. -/
theorem reachable_fitsTogether
    (reachable : Reachable exec {} m) :
    m.FitsTogether :=
  have ⟨roles, timers⟩ := fits_of_reachable reachable
  roles.fitsTogether timers

/-- Two tablets; the second one asks for control, and then the primary's
socket drops. -/
private def dropDuringRequest : List Op :=
  [.connect ⟨0⟩ ⟨some "2", some "stage", none⟩ "c0",
    .connect ⟨1⟩ ⟨some "2", some "booth", none⟩ "c1",
    .requestControl ⟨1⟩ "r0",
    .disconnect ⟨0⟩]

/-- The slot is held and a request is pending at once. -/
theorem reachable_fitsTogether_dropDuringRequest :
    ∃ m, execAll exec {} dropDuringRequest = some m ∧
      m.reservedFor.isSome ∧ m.request.isSome ∧ m.FitsTogether := by
  have runs : (execAll exec {} dropDuringRequest).map (fun m =>
      m.reservedFor.isSome && m.request.isSome) = some true := by
    decide +kernel
  obtain ⟨m, executed, both⟩ := Option.map_eq_some_iff.mp runs
  rw [Bool.and_eq_true] at both
  exact ⟨m, executed, both.1, both.2,
    reachable_fitsTogether (reachable_of_execAll executed)⟩

end ConnectionManager
end AbletonTracks
