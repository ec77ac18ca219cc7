import AbletonTracks.Manager.Timers

/-!
# The primary, the requester and the held slot

`RolesFit` is what every operation preserves about who is primary, who asks
for control and for whom an empty slot is held.
-/

namespace AbletonTracks

open Library

namespace ConnectionManager

variable {m after : ConnectionManager} {op : Op} {todo : List Todo}

/-! ## Handoff capability of the connected sockets -/

/-- A socket that supports handoff is connected. -/
theorem mem_of_supportsHandoff
    {ws : WebSocket}
    (capable : m.supportsHandoff ws = true) :
    ws ∈ m.clients := by
  obtain ⟨client, found, _⟩ := supportsHandoff_iff.mp capable
  exact Dict.mem_of_get? found

theorem supportsHandoff_congr
    {other : ConnectionManager}
    (clients : other.clients = m.clients)
    (ws : WebSocket) :
    other.supportsHandoff ws = m.supportsHandoff ws := by
  simp [supportsHandoff, clients]

theorem supportsHandoff_join_of_ne
    {ws other : WebSocket}
    (different : other ≠ ws)
    (params : QueryParams)
    (connectionId : String) :
    (m.join ws params connectionId).supportsHandoff other =
      m.supportsHandoff other := by
  simp only [supportsHandoff, join]
  rw [Dict.get?_insert_of_ne _ different]

theorem supportsHandoff_forget_of_ne
    {ws other : WebSocket}
    (different : other ≠ ws) :
    (m.forget ws).supportsHandoff other = m.supportsHandoff other := by
  simp only [supportsHandoff, forget_clients]
  rw [Dict.get?_erase_of_ne _ different]

/-- A renamed client was there before, with the same identity. -/
theorem get?_rename
    (ws : WebSocket)
    {change : Client → Client}
    (keeps : KeepsIdentity change)
    {current : WebSocket}
    {client : Client}
    (found : (m.clients.modify ws change).get? current = some client) :
    ∃ old, m.clients.get? current = some old ∧
      client.clientId = old.clientId ∧ client.protocol = old.protocol := by
  rw [Dict.get?_modify] at found
  split at found
  · obtain ⟨old, stored, rfl⟩ := Option.map_eq_some_iff.mp found
    exact ⟨old, stored, (keeps old).1, (keeps old).2.1⟩
  · exact ⟨client, found, rfl, rfl⟩

theorem supportsHandoff_rename
    (ws : WebSocket)
    {change : Client → Client}
    (keeps : KeepsIdentity change)
    (current : WebSocket) :
    supportsHandoff { m with clients := m.clients.modify ws change } current =
      m.supportsHandoff current := by
  simp only [supportsHandoff, Dict.get?_modify]
  cases found : m.clients.get? current with
  | none => simp
  | some client =>
      by_cases same : current = ws
      · simp [same, (keeps client).2.1]
      · simp [same]

/-- A client keeps its identity until its socket disconnects. -/
theorem client_persists
    {ws : WebSocket}
    {client : Client}
    (enabled : m.Enabled op)
    (branch : m.Transition op after todo)
    (found : m.clients.get? ws = some client)
    (staying : op ≠ .disconnect ws) :
    ∃ later, after.clients.get? ws = some later ∧
      later.clientId = client.clientId ∧
      later.protocol = client.protocol := by
  have joined : ∀ {other : WebSocket} {params : QueryParams}
      {connectionId : String}, other ∉ m.clients →
      (m.join other params connectionId).clients.get? ws = some client := by
    intro other params connectionId fresh
    have different : ws ≠ other := by
      rintro rfl
      exact fresh (Dict.mem_of_get? found)
    simp only [join]
    rw [Dict.get?_insert_of_ne _ different, found]
  have forgotten : ∀ {other : WebSocket}, op = .disconnect other →
      (m.clients.erase other).get? ws = some client := by
    rintro other rfl
    rw [Dict.get?_erase_of_ne, found]
    rintro rfl
    exact staying rfl
  cases branch with
  | reclaims | supersedes | takesSlot | observes =>
      exact ⟨client, joined enabled, rfl, rfl⟩
  | @renames other _ change keeps =>
      simp only [Dict.get?_modify, found, Option.map_some]
      by_cases same : ws = other
      · exact ⟨change client, by simp [same], (keeps client).1,
          (keeps client).2.1⟩
      · exact ⟨client, by simp [same], rfl, rfl⟩
  | leaves | handsBack | reserves | empties =>
      refine ⟨client, ?_, rfl, rfl⟩
      simpa using forgotten rfl
  | _ => exact ⟨client, found, rfl, rfl⟩

/-- A client was there before with the same identity, or this step connected
it. -/
theorem client_origin
    {ws : WebSocket}
    {client : Client}
    (branch : m.Transition op after todo)
    (found : after.clients.get? ws = some client) :
    (∃ old, m.clients.get? ws = some old ∧
      client.clientId = old.clientId ∧ client.protocol = old.protocol) ∨
    ∃ params connectionId, op = .connect ws params connectionId ∧
      client = newClient params connectionId := by
  have joined : ∀ {other : WebSocket} {params : QueryParams}
      {connectionId : String}, op = .connect other params connectionId →
      (m.join other params connectionId).clients.get? ws = some client →
      (∃ old, m.clients.get? ws = some old ∧
        client.clientId = old.clientId ∧ client.protocol = old.protocol) ∨
      ∃ params connectionId, op = .connect ws params connectionId ∧
        client = newClient params connectionId := by
    intro other params connectionId connecting stored
    simp only [join, Dict.get?_insert] at stored
    split at stored
    · rename_i same
      subst same
      exact Or.inr ⟨params, connectionId, connecting,
        (Option.some.inj stored).symm⟩
    · exact Or.inl ⟨client, stored, rfl, rfl⟩
  cases branch with
  | reclaims | supersedes | takesSlot | observes => exact joined rfl found
  | renames _ keeps => exact Or.inl (get?_rename _ keeps found)
  | leaves | handsBack | reserves | empties =>
      simp only [startReservation_clients, forget_clients,
        Dict.get?_erase] at found
      split at found
      · cases found
      · exact Or.inl ⟨client, found, rfl, rfl⟩
  | _ => exact Or.inl ⟨client, found, rfl, rfl⟩

/-- Who is connected after an operation. -/
theorem mem_clients_iff
    {ws : WebSocket}
    (branch : m.Transition op after todo) :
    ws ∈ after.clients ↔
      (ws ∈ m.clients ∧ op ≠ .disconnect ws) ∨
        ∃ params connectionId, op = .connect ws params connectionId := by
  have erased : ∀ {other : WebSocket}, op = .disconnect other →
      (ws ∈ m.clients.erase other ↔
        (ws ∈ m.clients ∧ op ≠ .disconnect ws) ∨
          ∃ params connectionId, op = .connect ws params connectionId) := by
    rintro other rfl
    simp [eq_comm]
  cases branch with
  | reclaims | supersedes | takesSlot | observes =>
      simp only [endReservation_clients, join, Dict.mem_insert]
      constructor
      · rintro (rfl | present)
        · exact Or.inr ⟨_, _, rfl⟩
        · exact Or.inl ⟨present, by simp⟩
      · rintro (⟨present, _⟩ | ⟨_, _, same⟩)
        · exact Or.inr present
        · cases same
          exact Or.inl rfl
  | leaves | handsBack | reserves | empties =>
      simpa using erased rfl
  | absent gone =>
      have missing := Dict.get?_eq_none_iff.mp gone
      refine ⟨fun present => Or.inl ⟨present, ?_⟩, ?_⟩
      · rintro ⟨⟩
        exact missing present
      · rintro (⟨present, _⟩ | ⟨_, _, impossible⟩)
        · exact present
        · cases impossible
  | renames => simp
  | _ => simp

/-- A newly connected client carries an install id only from protocol 2. -/
theorem newClient_capable
    {params : QueryParams}
    {connectionId : String}
    (carries : (newClient params connectionId).clientId ≠ none) :
    handoffProtocol ≤ (newClient params connectionId).protocol := by
  unfold newClient at carries ⊢
  simp only at carries ⊢
  split at carries
  · assumption
  · exact absurd rfl carries

/-! ## The invariant of the roles -/

/-- How the primary, the requester and the held slot constrain each other. -/
structure RolesFit (m : ConnectionManager) : Prop where
  connected : ∀ ws, m.primary = some ws → ws ∈ m.clients
  requester : ∀ request, m.request = some request →
    m.supportsHandoff request.requester = true
  vacant : m.reservedFor ≠ none → m.primary = none
  away : ∀ a, m.reservedFor = some a → ∀ ws client,
    m.clients.get? ws = some client → client.clientId ≠ some a
  capable : ∀ ws client, m.clients.get? ws = some client →
    client.clientId ≠ none → handoffProtocol ≤ client.protocol

theorem rolesFit_initial : RolesFit {} where
  connected := by simp
  requester := by simp
  vacant := by simp
  away := by simp
  capable := by simp

namespace RolesFit

/-- Only the clients, the primary, the reservation and the request matter. -/
theorem congr
    {other : ConnectionManager}
    (fits : m.RolesFit)
    (clients : other.clients = m.clients)
    (primary : other.primary = m.primary)
    (reservedFor : other.reservedFor = m.reservedFor)
    (request : other.request = m.request) :
    other.RolesFit where
  connected := by rw [primary, clients]; exact fits.connected
  requester := by
    intro pending found
    rw [supportsHandoff_congr clients]
    exact fits.requester pending (request ▸ found)
  vacant := by rw [reservedFor, primary]; exact fits.vacant
  away := by rw [reservedFor, clients]; exact fits.away
  capable := by rw [clients]; exact fits.capable

/-- While somebody is primary, the slot is not held for anybody. -/
theorem reservedFor_eq_none
    (fits : m.RolesFit)
    {ws : WebSocket}
    (primary : m.primary = some ws) :
    m.reservedFor = none := by
  by_contra reserved
  have vacant := fits.vacant reserved
  rw [primary] at vacant
  cases vacant

/-- Anybody connected can take an unreserved slot. -/
theorem withPrimary
    (fits : m.RolesFit)
    (unreserved : m.reservedFor = none)
    {target : WebSocket}
    (present : target ∈ m.clients) :
    RolesFit { m with primary := some target } where
  connected := by
    intro ws primary
    rw [← Option.some.inj primary]
    exact present
  requester := fits.requester
  vacant := fun reserved => absurd unreserved reserved
  away := fits.away
  capable := fits.capable

/-- The slot can be emptied at any time. -/
theorem withoutPrimary
    (fits : m.RolesFit) :
    RolesFit { m with primary := none } where
  connected := by simp
  requester := fits.requester
  vacant := fun _ => rfl
  away := fits.away
  capable := fits.capable

theorem clearRequest (fits : m.RolesFit) : m.clearRequest.RolesFit where
  connected := fits.connected
  requester := by simp
  vacant := fits.vacant
  away := fits.away
  capable := fits.capable

theorem dropReservation
    (fits : m.RolesFit) :
    RolesFit { m with reservedFor := none } where
  connected := fits.connected
  requester := fits.requester
  vacant := fun reserved => absurd rfl reserved
  away := by simp
  capable := fits.capable

/-- A new socket joins that does not carry the id the slot is held for. -/
theorem join
    (fits : m.RolesFit)
    {ws : WebSocket}
    (fresh : ws ∉ m.clients)
    {params : QueryParams}
    {connectionId : String}
    (other : ∀ a, (newClient params connectionId).clientId = some a →
      m.reservedFor ≠ some a) :
    (m.join ws params connectionId).RolesFit where
  connected := by
    intro primary holds
    exact Dict.mem_insert.mpr (Or.inr (fits.connected primary holds))
  requester := by
    intro request pending
    have capable := fits.requester request pending
    have different : request.requester ≠ ws := fun same =>
      fresh (same ▸ mem_of_supportsHandoff capable)
    rwa [supportsHandoff_join_of_ne different]
  vacant := fits.vacant
  away := by
    intro a reserved current client found carries
    simp only [ConnectionManager.join, Dict.get?_insert] at found
    split at found
    · obtain rfl := Option.some.inj found
      exact other a carries reserved
    · exact fits.away a reserved current client found carries
  capable := by
    intro current client found carries
    simp only [ConnectionManager.join, Dict.get?_insert] at found
    split at found
    · obtain rfl := Option.some.inj found
      exact newClient_capable carries
    · exact fits.capable current client found carries

/-- A new socket joins and takes an unreserved slot. -/
theorem joinPrimary
    (fits : m.RolesFit)
    {ws : WebSocket}
    (fresh : ws ∉ m.clients)
    (unreserved : m.reservedFor = none)
    {params : QueryParams}
    {connectionId : String} :
    RolesFit { m.join ws params connectionId with primary := some ws } := by
  have joined : (m.join ws params connectionId).RolesFit :=
    fits.join fresh (by simp [unreserved])
  exact joined.withPrimary unreserved (Dict.mem_insert.mpr (Or.inl rfl))

/-- A socket leaves that is not primary, or whose slot was emptied before. -/
theorem forget
    (fits : m.RolesFit)
    {ws : WebSocket}
    (notPrimary : m.primary ≠ some ws) :
    (m.forget ws).RolesFit where
  connected := by
    intro primary holds
    rw [forget_primary] at holds
    rw [forget_clients, Dict.mem_erase]
    refine ⟨fits.connected primary holds, ?_⟩
    rintro rfl
    exact notPrimary holds
  requester := by
    intro request pending
    rw [forget_request, Option.filter_eq_some_iff] at pending
    obtain ⟨stillPending, different⟩ := pending
    rw [supportsHandoff_forget_of_ne (of_decide_eq_true different)]
    exact fits.requester request stillPending
  vacant := by
    rw [forget_reservedFor, forget_primary]
    exact fits.vacant
  away := by
    intro a reserved current client found
    rw [forget_reservedFor] at reserved
    rw [forget_clients, Dict.get?_erase] at found
    split at found
    · cases found
    · exact fits.away a reserved current client found
  capable := by
    intro current client found
    rw [forget_clients, Dict.get?_erase] at found
    split at found
    · cases found
    · exact fits.capable current client found

/-- The primary leaves and its slot is emptied. -/
theorem forgetPrimary
    (fits : m.RolesFit)
    (ws : WebSocket) :
    RolesFit { m.forget ws with primary := none } := by
  have forgotten :
      (ConnectionManager.forget { m with primary := none } ws).RolesFit :=
    fits.withoutPrimary.forget (by simp)
  refine forgotten.congr ?_ ?_ ?_ ?_
  · simp
  · simp
  · simp
  · simp only [forget_request]

/-- Names do not matter. -/
theorem rename
    (fits : m.RolesFit)
    (ws : WebSocket)
    {change : Client → Client}
    (keeps : KeepsIdentity change) :
    RolesFit { m with clients := m.clients.modify ws change } := by
  exact
    { connected := fun current holds =>
        Dict.mem_modify.mpr (fits.connected current holds)
      requester := by
        intro request pending
        rw [supportsHandoff_rename ws keeps]
        exact fits.requester request pending
      vacant := fits.vacant
      away := by
        intro a reserved current client found
        obtain ⟨old, stored, sameId, _⟩ := get?_rename ws keeps found
        rw [sameId]
        exact fits.away a reserved current old stored
      capable := by
        intro current client found carries
        obtain ⟨old, stored, sameId, protocol⟩ := get?_rename ws keeps found
        rw [protocol]
        exact fits.capable current old stored (sameId ▸ carries) }

/-- Every branch of every enabled operation keeps the roles in order. -/
theorem transition
    (fits : m.RolesFit)
    (enabled : m.Enabled op)
    (branch : m.Transition op after todo) :
    after.RolesFit := by
  cases branch with
  | reclaims =>
      exact (fits.dropReservation.joinPrimary enabled rfl).congr
        rfl rfl rfl rfl
  | supersedes _ _ primary =>
      exact fits.joinPrimary enabled (fits.reservedFor_eq_none primary)
  | takesSlot _ unreserved => exact fits.joinPrimary enabled unreserved
  | observes others =>
      exact fits.join enabled fun a carries => (others a carries).1
  | renames _ keeps => exact fits.rename _ keeps
  | absent => exact fits
  | leaves _ notPrimary => exact fits.forget notPrimary
  | @handsBack ws _ _ _ _ _ primary _ _ siblingFound =>
      have unreserved := fits.reservedFor_eq_none primary
      refine ((fits.forgetPrimary ws).withPrimary ?_ ?_).congr rfl rfl rfl rfl
      · simpa using unreserved
      · simpa using Dict.mem_of_get? siblingFound
  | @reserves ws client a _ _ _ nobody =>
      have emptied := fits.forgetPrimary ws
      exact
        { connected := emptied.connected
          requester := emptied.requester
          vacant := fun _ => rfl
          away := by
            intro held reserved other otherClient found
            rw [startReservation_reservedFor, Option.some.injEq] at reserved
            subst reserved
            refine nobody other otherClient ?_
            simpa using found
          capable := emptied.capable }
  | empties => exact fits.forgetPrimary _
  | requestIgnored => exact fits
  | requestRepeated => exact fits
  | requestBusy => exact fits
  | requestTakesSlot capable _ _ unreserved =>
      exact fits.withPrimary unreserved (mem_of_supportsHandoff capable)
  | requestRefused => exact fits
  | requestPends _ capable =>
      exact
        { connected := fits.connected
          requester := by
            intro request pending
            rw [← Option.some.inj pending]
            exact capable
          vacant := fits.vacant
          away := fits.away
          capable := fits.capable }
  | cancelIgnored => exact fits
  | withdraws => exact fits.clearRequest
  | respondIgnored => exact fits
  | respondStale => exact fits
  | accepts primary _ found =>
      exact fits.clearRequest.withPrimary (fits.reservedFor_eq_none primary)
        (Dict.mem_of_get? found)
  | denies => exact fits.clearRequest
  | grantIgnored => exact fits
  | grants primary _ _ found =>
      exact fits.clearRequest.withPrimary (fits.reservedFor_eq_none primary)
        (Dict.mem_of_get? found)
  | releases => exact fits.clearRequest.withoutPrimary
  | releasesTo pending =>
      exact fits.clearRequest.withPrimary (fits.reservedFor_eq_none enabled)
        (mem_of_supportsHandoff (fits.requester _ pending))
  | unscheduled => exact fits
  | outlived => exact fits.congr rfl rfl rfl rfl
  | slotEmpties => exact fits.dropReservation.congr rfl rfl rfl rfl
  | slotGranted _ _ _ _ _ found =>
      have dropped := fits.dropReservation.clearRequest
      exact (dropped.withPrimary rfl (Dict.mem_of_get? found)).congr
        rfl rfl rfl rfl
  | requestExpires => exact fits.clearRequest.congr rfl rfl rfl rfl
  | waits => exact fits.congr rfl rfl rfl rfl

end RolesFit

end ConnectionManager
end AbletonTracks
