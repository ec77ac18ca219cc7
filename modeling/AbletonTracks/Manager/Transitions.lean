import AbletonTracks.Manager.Steps

/-!
# Everything one operation can do

`Transition` lists the branches of the manager's operations: the guard that
selects a branch, the state it leaves behind and the awaits it still makes.
`transition_of_apply` is the inversion rule that the invariants rest on; no
later proof unfolds an operation.
-/

namespace AbletonTracks

open Library

namespace ConnectionManager

variable {m after : ConnectionManager} {todo : List Todo}

/-! ## Fields of the building blocks -/

section Fields

variable (m)

@[simp] theorem endReservation_clients :
    m.endReservation.clients = m.clients := rfl

@[simp] theorem endReservation_primary :
    m.endReservation.primary = m.primary := rfl

@[simp] theorem endReservation_reservedFor :
    m.endReservation.reservedFor = none := rfl

@[simp] theorem endReservation_reserveTimer :
    m.endReservation.reserveTimer = none := rfl

@[simp] theorem endReservation_request :
    m.endReservation.request = m.request := rfl

@[simp] theorem endReservation_loop :
    m.endReservation.loop = m.loop.cancel m.reserveTimer := rfl

variable (clientId : ClientId)

@[simp] theorem startReservation_clients :
    (m.startReservation clientId).clients = m.clients := rfl

@[simp] theorem startReservation_primary :
    (m.startReservation clientId).primary = m.primary := rfl

@[simp] theorem startReservation_reservedFor :
    (m.startReservation clientId).reservedFor = some clientId := rfl

@[simp] theorem startReservation_request :
    (m.startReservation clientId).request = m.request := rfl

@[simp] theorem clearRequest_clients :
    m.clearRequest.clients = m.clients := rfl

@[simp] theorem clearRequest_primary :
    m.clearRequest.primary = m.primary := rfl

@[simp] theorem clearRequest_reservedFor :
    m.clearRequest.reservedFor = m.reservedFor := rfl

@[simp] theorem clearRequest_reserveTimer :
    m.clearRequest.reserveTimer = m.reserveTimer := rfl

@[simp] theorem clearRequest_request : m.clearRequest.request = none := rfl

@[simp] theorem clearRequest_loop :
    m.clearRequest.loop = m.loop.cancel (m.request.bind Request.timer) := rfl

variable (ws : WebSocket)

@[simp] theorem forget_clients :
    (m.forget ws).clients = m.clients.erase ws := by
  simp only [forget]
  split <;> rfl

@[simp] theorem forget_primary : (m.forget ws).primary = m.primary := by
  simp only [forget]
  split <;> rfl

@[simp] theorem forget_reservedFor :
    (m.forget ws).reservedFor = m.reservedFor := by
  simp only [forget]
  split <;> rfl

@[simp] theorem forget_reserveTimer :
    (m.forget ws).reserveTimer = m.reserveTimer := by
  simp only [forget]
  split <;> rfl

/-- A departing socket takes exactly its own request with it. -/
theorem forget_request :
    (m.forget ws).request =
      m.request.filter fun request => request.requester ≠ ws := by
  simp only [forget]
  cases pending : m.request with
  | none => simp
  | some request =>
      by_cases own : request.requester = ws
      · simp [own, Option.filter]
      · simp [own, Option.filter]

end Fields

/-- A socket that supports handoff is connected with protocol 2 or later. -/
theorem supportsHandoff_iff {ws : WebSocket} :
    m.supportsHandoff ws = true ↔
      ∃ client, m.clients.get? ws = some client ∧
        handoffProtocol ≤ client.protocol := by
  unfold supportsHandoff
  cases found : m.clients.get? ws with
  | none => simp
  | some client => simp

/-- Looking up a connected socket succeeds. -/
theorem lookup_of_get?
    {ws : WebSocket}
    {client : Client}
    (found : m.clients.get? ws = some client) :
    m.lookup ws = .ok client := by
  simp [lookup, found]

/-- A lookup that does not raise finds a connected socket. -/
theorem get?_of_lookup
    {ws : WebSocket}
    {client : Client}
    (found : m.lookup ws = .ok client) :
    m.clients.get? ws = some client := by
  unfold lookup at found
  cases stored : m.clients.get? ws with
  | none => simp [stored] at found
  | some other => simpa [stored] using found

/-- The manager with one more client, before any role is assigned. -/
def join
    (m : ConnectionManager)
    (ws : WebSocket)
    (params : QueryParams)
    (connectionId : String) : ConnectionManager :=
  { m with clients := m.clients.insert ws (newClient params connectionId) }

/-- A change of a client that concerns its name only. -/
def KeepsIdentity (change : Client → Client) : Prop :=
  ∀ client, (change client).clientId = client.clientId ∧
    (change client).protocol = client.protocol ∧
    (change client).connectionId = client.connectionId

/-- The branches of the manager's operations. -/
inductive Transition (m : ConnectionManager) :
    Op → ConnectionManager → List Todo → Prop
  /-- A socket of the install that the slot is held for. -/
  | reclaims
      {ws : WebSocket} {params : QueryParams} {connectionId : String}
      {a : ClientId} :
      (newClient params connectionId).clientId = some a →
      m.reservedFor = some a →
      Transition m (.connect ws params connectionId)
        { (m.join ws params connectionId).endReservation with
          primary := some ws }
        (.sendState ws :: announce [])
  /-- A newer socket of the primary's install. -/
  | supersedes
      {ws old : WebSocket} {params : QueryParams} {connectionId : String}
      {a : ClientId} {oldClient : Client} :
      (newClient params connectionId).clientId = some a →
      m.reservedFor ≠ some a →
      m.primary = some old →
      (m.join ws params connectionId).clients.get? old = some oldClient →
      oldClient.clientId = some a →
      Transition m (.connect ws params connectionId)
        { m.join ws params connectionId with primary := some ws }
        (.sendState ws :: announce [(old, .superseded)])
  | takesSlot
      {ws : WebSocket} {params : QueryParams} {connectionId : String} :
      m.primary = none →
      m.reservedFor = none →
      ¬((newClient params connectionId).clientId ≠ none ∧
        params.prevRole = some "observer") →
      Transition m (.connect ws params connectionId)
        { m.join ws params connectionId with primary := some ws }
        (.sendState ws :: announce [])
  | observes
      {ws : WebSocket} {params : QueryParams} {connectionId : String} :
      (∀ a, (newClient params connectionId).clientId = some a →
        m.reservedFor ≠ some a ∧
        ∀ old oldClient, m.primary = some old →
          (m.join ws params connectionId).clients.get? old = some oldClient →
          oldClient.clientId ≠ some a) →
      ¬(m.primary = none ∧ m.reservedFor = none ∧
        ¬((newClient params connectionId).clientId ≠ none ∧
          params.prevRole = some "observer")) →
      Transition m (.connect ws params connectionId)
        (m.join ws params connectionId)
        (.sendState ws :: announce [])
  | renames
      {ws : WebSocket} {name : String} (change : Client → Client) :
      KeepsIdentity change →
      Transition m (.setName ws name)
        { m with clients := m.clients.modify ws change } [.broadcastRoster]
  /-- Disconnect of a socket that is not connected. -/
  | absent {ws : WebSocket} :
      m.clients.get? ws = none →
      Transition m (.disconnect ws) m (announce [])
  | leaves {ws : WebSocket} {client : Client} :
      m.clients.get? ws = some client →
      m.primary ≠ some ws →
      Transition m (.disconnect ws) (m.forget ws) (announce [])
  /-- The primary's socket closes while its install has another one. -/
  | handsBack
      {ws sibling : WebSocket} {client siblingClient : Client}
      {a : ClientId} :
      m.clients.get? ws = some client →
      m.primary = some ws →
      client.clientId = some a →
      (m.forget ws).sibling? client = some sibling →
      (m.clients.erase ws).get? sibling = some siblingClient →
      siblingClient.clientId = some a →
      Transition m (.disconnect ws)
        { m.forget ws with primary := some sibling }
        (announce [(sibling, .reclaimed)])
  /-- The primary's last socket closes. -/
  | reserves {ws : WebSocket} {client : Client} {a : ClientId} :
      m.clients.get? ws = some client →
      m.primary = some ws →
      client.clientId = some a →
      (∀ other otherClient,
        (m.clients.erase ws).get? other = some otherClient →
        otherClient.clientId ≠ some a) →
      Transition m (.disconnect ws)
        ({ m.forget ws with primary := none }.startReservation a)
        (announce [])
  /-- A primary without a client id closes. -/
  | empties {ws : WebSocket} {client : Client} :
      m.clients.get? ws = some client →
      m.primary = some ws →
      client.clientId = none →
      Transition m (.disconnect ws)
        { m.forget ws with primary := none } (announce [])
  | requestIgnored {ws : WebSocket} {requestId : String} :
      m.primary = some ws ∨ m.supportsHandoff ws = false →
      Transition m (.requestControl ws requestId) m []
  | requestRepeated
      {ws : WebSocket} {requestId : String} {request : Request} :
      m.request = some request →
      request.requester = ws →
      Transition m (.requestControl ws requestId) m [.sendHandoff ws]
  | requestBusy
      {ws : WebSocket} {requestId : String} {request : Request} :
      m.request = some request →
      request.requester ≠ ws →
      Transition m (.requestControl ws requestId) m
        [.sendResult ws none .busy .anotherRequestPending]
  | requestTakesSlot {ws : WebSocket} {requestId : String} :
      m.supportsHandoff ws = true →
      m.request = none →
      m.primary = none →
      m.reservedFor = none →
      Transition m (.requestControl ws requestId)
        { m with primary := some ws } (announce [(ws, .slotEmpty)])
  | requestRefused {ws : WebSocket} {requestId : String} :
      m.request = none →
      m.primaryOutdated = true →
      Transition m (.requestControl ws requestId) m
        [.sendResult ws none .unavailable .primaryOutdated]
  | requestPends {ws : WebSocket} {requestId : String} :
      m.primary ≠ some ws →
      m.supportsHandoff ws = true →
      m.request = none →
      ¬(m.primary = none ∧ m.reservedFor = none) →
      m.primaryOutdated = false →
      Transition m (.requestControl ws requestId)
        { m with
          request := some
            { requestId := requestId
              requester := ws
              expiresAt := m.loop.time + requestTimeout
              timer := some m.loop.nextTask }
          loop := m.loop.createTask requestTimeout
            (.requestExpiry requestId) } [.broadcastHandoff]
  | cancelIgnored {ws : WebSocket} :
      (∀ request, m.request = some request → request.requester ≠ ws) →
      Transition m (.cancelRequest ws) m []
  | withdraws {request : Request} :
      m.request = some request →
      Transition m (.cancelRequest request.requester) m.clearRequest
        [.sendResult request.requester (some request.requestId) .cancelled
            .withdrawn,
          .broadcastHandoff]
  | respondIgnored {ws : WebSocket} {requestId : String} {accept : Bool} :
      m.primary ≠ some ws →
      Transition m (.respond ws requestId accept) m []
  | respondStale {ws : WebSocket} {requestId : String} {accept : Bool} :
      m.primary = some ws →
      (∀ request, m.request = some request →
        request.requestId ≠ requestId) →
      Transition m (.respond ws requestId accept) m [.sendHandoff ws]
  | accepts
      {ws : WebSocket} {request : Request} {client : Client} :
      m.primary = some ws →
      m.request = some request →
      m.clients.get? request.requester = some client →
      Transition m (.respond ws request.requestId true)
        { m.clearRequest with primary := some request.requester }
        (announce ((request.requester, .requestAccepted) ::
          ([ws].filter fun old => old ≠ request.requester).map
            fun old => (old, .handedOff)))
  | denies {ws : WebSocket} {request : Request} :
      m.primary = some ws →
      m.request = some request →
      Transition m (.respond ws request.requestId false) m.clearRequest
        [.sendResult request.requester (some request.requestId) .denied
            .declined,
          .broadcastHandoff]
  | grantIgnored {ws : WebSocket} {connectionId : String} :
      (m.primary = some ws → ∀ target,
        m.named? connectionId = some target →
        target = ws ∨ m.supportsHandoff target = false) →
      Transition m (.grant ws connectionId) m []
  | grants
      {ws target : WebSocket} {connectionId : String} {client : Client} :
      m.primary = some ws →
      m.named? connectionId = some target →
      target ≠ ws →
      m.clients.get? target = some client →
      client.connectionId = connectionId →
      handoffProtocol ≤ client.protocol →
      Transition m (.grant ws connectionId)
        { m.clearRequest with primary := some target }
        (m.passedOver target ++
          announce [(target, .granted), (ws, .handedOff)])
  | releases {ws : WebSocket} :
      m.request = none →
      Transition m (.release ws)
        { m.clearRequest with primary := none }
        (m.primary.toList.map Todo.sendReleased ++ announce [])
  | releasesTo {ws : WebSocket} {request : Request} :
      m.request = some request →
      Transition m (.release ws)
        { m.clearRequest with primary := some request.requester }
        (m.primary.toList.map Todo.sendReleased ++
          announce [(request.requester, .slotEmpty)])
  /-- No such task sleeps any more. -/
  | unscheduled {task : TaskId} :
      m.loop.timer? task = none →
      Transition m (.fire task) m []
  /-- A timer finds that what it was started for is over. -/
  | outlived {task : TaskId} {timer : Timer} :
      m.loop.timer? task = some timer →
      (∀ a, timer.body = .reservationExpiry a → m.reservedFor ≠ some a) →
      (∀ requestId request, timer.body = .requestExpiry requestId →
        m.request = some request → request.requestId ≠ requestId) →
      Transition m (.fire task)
        { m with loop := m.loop.cancel (some task) } []
  | slotEmpties {task : TaskId} {timer : Timer} {a : ClientId} :
      m.loop.timer? task = some timer →
      timer.body = .reservationExpiry a →
      m.reservedFor = some a →
      ¬(m.primary = none ∧ m.request ≠ none) →
      Transition m (.fire task)
        { m with
          loop := m.loop.cancel (some task)
          reserveTimer := none
          reservedFor := none } []
  | slotGranted
      {task : TaskId} {timer : Timer} {a : ClientId} {request : Request}
      {client : Client} :
      m.loop.timer? task = some timer →
      timer.body = .reservationExpiry a →
      m.reservedFor = some a →
      m.primary = none →
      m.request = some request →
      m.clients.get? request.requester = some client →
      Transition m (.fire task)
        { m with
          loop := (m.loop.cancel (some task)).cancel request.timer
          reserveTimer := none
          reservedFor := none
          request := none
          primary := some request.requester }
        (announce [(request.requester, .primaryTimedOut)])
  | requestExpires
      {task : TaskId} {timer : Timer} {request : Request} :
      m.loop.timer? task = some timer →
      timer.body = .requestExpiry request.requestId →
      m.request = some request →
      Transition m (.fire task)
        { m with loop := m.loop.cancel (some task), request := none }
        [.sendResult request.requester (some request.requestId) .expired
            .noResponse,
          .broadcastHandoff]
  | waits {time : ℚ} :
      Transition m (.wait time)
        { m with loop := { m.loop with time := time } } []

/-! ## Inversion, operation by operation -/

theorem transition_connect
    (ws : WebSocket)
    (params : QueryParams)
    (connectionId : String) :
    Transition m (.connect ws params connectionId)
      (m.connect ws params connectionId).1
      (.sendState ws ::
        announce (m.connect ws params connectionId).2) := by
  simp only [connect, assignOnConnect]
  split
  · rename_i held
    obtain ⟨present, reserved⟩ := held
    obtain ⟨a, carries⟩ := Option.ne_none_iff_exists'.mp present
    exact .reclaims carries (reserved.trans carries)
  rename_i notReserved
  split
  · rename_i superseding
    obtain ⟨present, sameInstall⟩ := superseding
    obtain ⟨a, carries⟩ := Option.ne_none_iff_exists'.mp present
    simp only [Option.map_eq_some_iff, Option.bind_eq_some_iff] at sameInstall
    obtain ⟨oldClient, ⟨old, holds, found⟩, oldCarries⟩ := sameInstall
    simp only [holds, Option.toList_some, List.map_cons, List.map_nil]
    refine .supersedes carries ?_ holds found (oldCarries.trans carries)
    intro reserved
    exact notReserved ⟨present, reserved.trans carries.symm⟩
  rename_i notSuperseding
  have noClaim : ∀ a, (newClient params connectionId).clientId = some a →
      m.reservedFor ≠ some a ∧
      ∀ old oldClient, m.primary = some old →
        (m.join ws params connectionId).clients.get? old = some oldClient →
        oldClient.clientId ≠ some a := by
    intro a carries
    have present : (newClient params connectionId).clientId ≠ none := by
      simp [carries]
    constructor
    · intro reserved
      exact notReserved ⟨present, reserved.trans carries.symm⟩
    · intro old oldClient holds found oldCarries
      refine notSuperseding ⟨present, ?_⟩
      simp only [Option.map_eq_some_iff, Option.bind_eq_some_iff]
      exact ⟨oldClient, ⟨old, holds, found⟩, oldCarries.trans carries.symm⟩
  split
  · rename_i slot
    exact .takesSlot slot.1 slot.2.1 slot.2.2
  · rename_i taken
    exact .observes noClaim taken

theorem transition_disconnect
    {ws : WebSocket}
    {changes : Changes}
    (applied : m.disconnect ws = .ok (after, changes)) :
    Transition m (.disconnect ws) after (announce changes) := by
  unfold disconnect at applied
  cases found : m.clients.get? ws with
  | none =>
      simp only [found, Except.ok.injEq, Prod.mk.injEq] at applied
      obtain ⟨rfl, rfl⟩ := applied
      exact .absent found
  | some client =>
      simp only [found, forget_primary] at applied
      split at applied
      · rename_i notPrimary
        simp only [Except.ok.injEq, Prod.mk.injEq] at applied
        obtain ⟨rfl, rfl⟩ := applied
        exact .leaves found notPrimary
      rename_i isPrimary
      have primary : m.primary = some ws := not_not.mp isPrimary
      split at applied
      · rename_i sibling siblingFound
        have siblingFound' : (m.forget ws).sibling? client = some sibling :=
          siblingFound
        simp only [bind, Except.bind, pure, Except.pure] at applied
        split at applied
        · cases applied
        simp only [Except.ok.injEq, Prod.mk.injEq] at applied
        obtain ⟨rfl, rfl⟩ := applied
        obtain ⟨siblingClient, stored, accepted⟩ :=
          Dict.get?_of_findKey? siblingFound'
        simp only [forget_clients] at stored
        simp only [ne_eq, Bool.decide_and, decide_not, Bool.and_eq_true,
          Bool.not_eq_eq_eq_not, Bool.not_true, decide_eq_false_iff_not,
          decide_eq_true_eq] at accepted
        obtain ⟨a, carries⟩ := Option.ne_none_iff_exists'.mp accepted.1
        exact .handsBack found primary carries siblingFound' stored
          (accepted.2.trans carries)
      · rename_i noSibling
        have noSibling' : (m.forget ws).sibling? client = none := noSibling
        split at applied
        · rename_i a carries
          simp only [Except.ok.injEq, Prod.mk.injEq] at applied
          obtain ⟨rfl, rfl⟩ := applied
          refine .reserves found primary carries ?_
          intro other otherClient stored same
          have rejected := Dict.findKey?_eq_none_iff_get?.mp noSibling' other
            otherClient (by simpa using stored)
          simp [carries, same] at rejected
        · rename_i carriesNone
          simp only [Except.ok.injEq, Prod.mk.injEq] at applied
          obtain ⟨rfl, rfl⟩ := applied
          exact .empties found primary carriesNone

theorem transition_requestControl
    {ws : WebSocket}
    {requestId : String}
    (applied : m.requestControl ws requestId = .ok (after, todo)) :
    Transition m (.requestControl ws requestId) after todo := by
  unfold requestControl at applied
  split at applied
  · rename_i ignored
    simp only [Except.ok.injEq, Prod.mk.injEq] at applied
    obtain ⟨rfl, rfl⟩ := applied
    exact .requestIgnored ignored
  rename_i eligible
  simp only [not_or, Bool.not_eq_false] at eligible
  split at applied
  · rename_i request pending
    split at applied
    · rename_i own
      simp only [Except.ok.injEq, Prod.mk.injEq] at applied
      obtain ⟨rfl, rfl⟩ := applied
      exact .requestRepeated pending own
    · rename_i other
      simp only [Except.ok.injEq, Prod.mk.injEq] at applied
      obtain ⟨rfl, rfl⟩ := applied
      exact .requestBusy pending other
  rename_i idle
  split at applied
  · rename_i slotEmpty
    simp only [bind, Except.bind, pure, Except.pure] at applied
    split at applied
    · cases applied
    simp only [Except.ok.injEq, Prod.mk.injEq] at applied
    obtain ⟨rfl, rfl⟩ := applied
    exact .requestTakesSlot eligible.2 idle slotEmpty.1 slotEmpty.2
  rename_i slotTaken
  split at applied
  · rename_i outdated
    simp only [Except.ok.injEq, Prod.mk.injEq] at applied
    obtain ⟨rfl, rfl⟩ := applied
    exact .requestRefused idle outdated
  · rename_i notOutdated
    simp only [bind, Except.bind, pure, Except.pure] at applied
    split at applied
    · cases applied
    simp only [Except.ok.injEq, Prod.mk.injEq] at applied
    obtain ⟨rfl, rfl⟩ := applied
    exact .requestPends eligible.1 eligible.2 idle slotTaken
      (by simpa using notOutdated)

theorem transition_cancelRequest (ws : WebSocket) :
    Transition m (.cancelRequest ws)
      (m.cancelRequest ws).1 (m.cancelRequest ws).2 := by
  unfold cancelRequest
  split
  · rename_i idle
    exact .cancelIgnored (by simp [idle])
  · rename_i request pending
    split
    · rename_i other
      refine .cancelIgnored ?_
      intro found same
      rw [pending, Option.some.injEq] at same
      exact same ▸ other
    · rename_i own
      obtain rfl := not_not.mp own
      exact .withdraws pending

/-- What `_transfer` returns when it does not raise. -/
theorem transfer_eq_ok
    {target : WebSocket}
    {reason : RoleReason}
    {changes : Changes}
    (transferred : m.transfer target reason = .ok (after, changes)) :
    (∃ client, m.clients.get? target = some client) ∧
      after = { m with primary := some target } ∧
      changes = (target, reason) ::
        (m.primary.toList.filter fun old => old ≠ target).map
          fun old => (old, .handedOff) := by
  simp only [transfer, bind, Except.bind, pure, Except.pure] at transferred
  split at transferred
  · cases transferred
  rename_i client found
  simp only [Except.ok.injEq, Prod.mk.injEq] at transferred
  exact ⟨⟨client, get?_of_lookup found⟩, transferred.1.symm,
    transferred.2.symm⟩

theorem transition_respond
    {ws : WebSocket}
    {requestId : String}
    {accept : Bool}
    (applied : m.respond ws requestId accept = .ok (after, todo)) :
    Transition m (.respond ws requestId accept) after todo := by
  unfold respond at applied
  split at applied
  · rename_i notPrimary
    simp only [Except.ok.injEq, Prod.mk.injEq] at applied
    obtain ⟨rfl, rfl⟩ := applied
    exact .respondIgnored notPrimary
  rename_i isPrimary
  have primary : m.primary = some ws := not_not.mp isPrimary
  split at applied
  · rename_i idle
    simp only [Except.ok.injEq, Prod.mk.injEq] at applied
    obtain ⟨rfl, rfl⟩ := applied
    exact .respondStale primary (by simp [idle])
  rename_i request pending
  split at applied
  · rename_i stale
    simp only [Except.ok.injEq, Prod.mk.injEq] at applied
    obtain ⟨rfl, rfl⟩ := applied
    refine .respondStale primary ?_
    intro found same
    rw [pending, Option.some.injEq] at same
    exact same ▸ stale
  rename_i current
  obtain rfl := not_not.mp current
  split at applied
  · rename_i accepted
    simp only [bind, Except.bind, pure, Except.pure] at applied
    split at applied
    · cases applied
    rename_i result transferred
    obtain ⟨granted, changed⟩ := result
    obtain ⟨⟨client, found⟩, equal, changes⟩ := transfer_eq_ok transferred
    simp only [Except.ok.injEq, Prod.mk.injEq] at applied
    obtain ⟨rfl, rfl⟩ := applied
    rw [equal, changes, accepted]
    simp only [clearRequest_primary, primary, Option.toList_some]
    exact .accepts primary pending found
  · rename_i declined
    simp only [Except.ok.injEq, Prod.mk.injEq] at applied
    obtain ⟨rfl, rfl⟩ := applied
    rw [Bool.not_eq_true] at declined
    rw [declined]
    exact .denies primary pending

theorem transition_grant
    {ws : WebSocket}
    {connectionId : String}
    (applied : m.grant ws connectionId = .ok (after, todo)) :
    Transition m (.grant ws connectionId) after todo := by
  unfold grant at applied
  split at applied
  · rename_i notPrimary
    simp only [Except.ok.injEq, Prod.mk.injEq] at applied
    obtain ⟨rfl, rfl⟩ := applied
    exact .grantIgnored fun isPrimary => absurd isPrimary notPrimary
  rename_i isPrimary
  have primary : m.primary = some ws := not_not.mp isPrimary
  split at applied
  · rename_i unnamed
    simp only [Except.ok.injEq, Prod.mk.injEq] at applied
    obtain ⟨rfl, rfl⟩ := applied
    exact .grantIgnored (by simp [unnamed])
  rename_i target named
  split at applied
  · rename_i improper
    simp only [Except.ok.injEq, Prod.mk.injEq] at applied
    obtain ⟨rfl, rfl⟩ := applied
    refine .grantIgnored fun _ other otherNamed => ?_
    rw [named, Option.some.injEq] at otherNamed
    exact otherNamed ▸ improper
  rename_i proper
  simp only [not_or, Bool.not_eq_false] at proper
  obtain ⟨different, capable⟩ := proper
  simp only [bind, Except.bind, pure, Except.pure] at applied
  split at applied
  · cases applied
  rename_i result transferred
  obtain ⟨granted, changed⟩ := result
  obtain ⟨_, equal, changes⟩ := transfer_eq_ok transferred
  simp only [Except.ok.injEq, Prod.mk.injEq] at applied
  obtain ⟨rfl, rfl⟩ := applied
  obtain ⟨client, found, protocol⟩ := supportsHandoff_iff.mp capable
  obtain ⟨other, otherFound, accepted⟩ := Dict.get?_of_findKey? named
  rw [found, Option.some.injEq] at otherFound
  subst otherFound
  rw [equal, changes]
  simp only [clearRequest_primary, primary, Option.toList_some,
    List.filter_cons_of_pos (p := fun old => decide (old ≠ target))
      (decide_eq_true (Ne.symm different)), List.filter_nil, List.map_cons,
    List.map_nil]
  exact .grants primary named different found (by simpa using accepted)
    protocol

theorem transition_release (ws : WebSocket) :
    Transition m (.release ws) m.release.1 m.release.2 := by
  unfold release
  cases pending : m.request with
  | none => exact .releases pending
  | some request => exact .releasesTo pending

theorem transition_fire
    {task : TaskId}
    (applied : m.fire task = .ok (after, todo)) :
    Transition m (.fire task) after todo := by
  unfold fire at applied
  split at applied
  · rename_i unscheduled
    simp only [Except.ok.injEq, Prod.mk.injEq] at applied
    obtain ⟨rfl, rfl⟩ := applied
    exact .unscheduled unscheduled
  rename_i timer scheduled
  simp only at applied
  split at applied
  · rename_i a body
    unfold reservationExpiry at applied
    simp only at applied
    split at applied
    · rename_i stale
      simp only [Except.ok.injEq, Prod.mk.injEq] at applied
      obtain ⟨rfl, rfl⟩ := applied
      refine .outlived scheduled ?_ (by simp [body])
      intro other sameBody
      rw [body, TimerBody.reservationExpiry.injEq] at sameBody
      exact sameBody ▸ stale
    rename_i held
    have reserved : m.reservedFor = some a := not_not.mp held
    split at applied
    · rename_i request primaryGone pending
      simp only [bind, Except.bind, pure, Except.pure] at applied
      split at applied
      · cases applied
      rename_i client found
      simp only [Except.ok.injEq, Prod.mk.injEq] at applied
      obtain ⟨rfl, rfl⟩ := applied
      have requested : m.request = some request := pending
      have granted := Transition.slotGranted scheduled body reserved
        primaryGone requested (get?_of_lookup found)
      simpa [clearRequest, requested] using granted
    · rename_i nobody
      simp only [Except.ok.injEq, Prod.mk.injEq] at applied
      obtain ⟨rfl, rfl⟩ := applied
      refine .slotEmpties scheduled body reserved ?_
      rintro ⟨primaryGone, requested⟩
      obtain ⟨request, pending⟩ := Option.ne_none_iff_exists'.mp requested
      exact nobody request primaryGone pending
  · rename_i requestId body
    simp only [Except.ok.injEq] at applied
    unfold requestExpiry at applied
    simp only at applied
    split at applied
    · rename_i idle
      simp only [Prod.mk.injEq] at applied
      obtain ⟨rfl, rfl⟩ := applied
      exact .outlived scheduled (by simp [body])
        (fun _ request _ pending => by simp [idle] at pending)
    rename_i request pending
    split at applied
    · rename_i stale
      simp only [Prod.mk.injEq] at applied
      obtain ⟨rfl, rfl⟩ := applied
      refine .outlived scheduled (by simp [body]) ?_
      intro other found sameBody same
      rw [body, TimerBody.requestExpiry.injEq] at sameBody
      rw [show m.request = some request from pending, Option.some.injEq]
        at same
      exact same ▸ sameBody ▸ stale
    · rename_i current
      obtain rfl := not_not.mp current
      simp only [Prod.mk.injEq] at applied
      obtain ⟨rfl, rfl⟩ := applied
      exact .requestExpires scheduled body pending

/-- Whatever an operation does is one of the listed branches. -/
theorem transition_of_apply
    {op : Op}
    (applied : m.apply op = .ok (after, todo)) :
    Transition m op after todo := by
  cases op with
  | connect ws params connectionId =>
      simp only [apply, Except.ok.injEq, Prod.mk.injEq] at applied
      obtain ⟨rfl, rfl⟩ := applied
      exact transition_connect ws params connectionId
  | setName ws name =>
      simp only [apply, setName, bind, Except.bind, pure, Except.pure]
        at applied
      split at applied
      · cases applied
      rename_i renamed changed
      split at changed
      · cases changed
      simp only [Except.ok.injEq] at changed
      simp only [Except.ok.injEq, Prod.mk.injEq] at applied
      obtain ⟨rfl, rfl⟩ := applied
      subst changed
      exact .renames _ fun _ => ⟨rfl, rfl, rfl⟩
  | disconnect ws =>
      simp only [apply, bind, Except.bind, pure, Except.pure] at applied
      split at applied
      · cases applied
      rename_i result disconnected
      simp only [Except.ok.injEq, Prod.mk.injEq] at applied
      obtain ⟨rfl, rfl⟩ := applied
      exact transition_disconnect disconnected
  | requestControl ws requestId => exact transition_requestControl applied
  | cancelRequest ws =>
      simp only [apply, Except.ok.injEq] at applied
      have branch := transition_cancelRequest (m := m) ws
      rwa [applied] at branch
  | respond ws requestId accept => exact transition_respond applied
  | grant ws connectionId => exact transition_grant applied
  | release ws =>
      simp only [apply, Except.ok.injEq] at applied
      have branch := transition_release (m := m) ws
      rwa [applied] at branch
  | fire task => exact transition_fire applied
  | wait time =>
      simp only [apply, Except.ok.injEq, Prod.mk.injEq] at applied
      obtain ⟨rfl, rfl⟩ := applied
      exact .waits

/-- A step of the machine is an enabled operation that took one of the listed
branches. -/
theorem transition_of_exec
    {op : Op}
    (taken : m.exec op = some after) :
    m.Enabled op ∧ ∃ todo, m.apply op = .ok (after, todo) ∧
      Transition m op after todo := by
  unfold exec at taken
  split at taken
  · rename_i enabled
    split at taken
    · rename_i result todo applied
      obtain rfl := Option.some.inj taken
      exact ⟨enabled, todo, applied, transition_of_apply applied⟩
    · cases taken
  · cases taken

end ConnectionManager
end AbletonTracks
