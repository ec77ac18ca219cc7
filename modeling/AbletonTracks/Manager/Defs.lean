import AbletonTracks.Library.Rounding
import AbletonTracks.Library.Sorting
import AbletonTracks.Library.Text
import AbletonTracks.Messages

/-!
# The connection manager

`_ConnectionManager` of the WebSocket server: who is connected, who is
primary, for whom an empty slot is held, and which control request is pending.
Every method changes the state fully before its first await, so a method is
modelled by the state it leaves behind and by the list of awaits that it still
has to make.

A lookup `self._clients[ws]` raises `KeyError` when the socket is not
connected; the lookups made only to log a connection id are kept for that
reason.
-/

namespace AbletonTracks

open Library

/-- The first protocol version with handoff. -/
def handoffProtocol : Int := 2

/-- Seconds a control request waits for the primary's answer. -/
def requestTimeout : ℚ := 20

/-- Seconds a dropped primary's slot is held. -/
def reclaimGrace : ℚ := 15

/-- Query parameters of the socket URL. -/
structure QueryParams where
  protocol : Option String := none
  clientId : Option String := none
  prevRole : Option String := none
  deriving DecidableEq

/-- A stable per-install id: a non-empty string. -/
structure ClientId where
  text : String
  nonempty : text ≠ ""
  deriving DecidableEq

/-- `params.get("client_id") or None`. -/
def ClientId.orNone : Option String → Option ClientId
  | none => none
  | some text =>
      if nonempty : text ≠ "" then some ⟨text, nonempty⟩ else none

/-- `_Client`. -/
structure Client where
  connectionId : String
  /-- The only way to recognize the same install across sockets. -/
  clientId : Option ClientId
  protocol : Int
  name : String := "Unnamed Device"
  deriving DecidableEq

abbrev TaskId := Nat

/-- `_Request`. -/
structure Request where
  requestId : String
  requester : WebSocket
  expiresAt : ℚ
  timer : Option TaskId
  deriving DecidableEq

/-- The coroutine a timer task runs once its sleep is over. -/
inductive TimerBody
  | reservationExpiry (clientId : ClientId)
  | requestExpiry (requestId : String)
  deriving DecidableEq

/-- A task that is still in its initial `asyncio.sleep`. -/
structure Timer where
  task : TaskId
  due : ℚ
  body : TimerBody
  deriving DecidableEq

/-- The part of the event loop that the manager uses: the clock and the
sleeping timer tasks. -/
structure EventLoop where
  time : ℚ := 0
  timers : List Timer := []
  nextTask : TaskId := 0
  deriving DecidableEq

namespace EventLoop

/-- `create_task` of a coroutine that first sleeps for `delay`. -/
def createTask
    (loop : EventLoop)
    (delay : ℚ)
    (body : TimerBody) : EventLoop :=
  { loop with
    timers := loop.timers ++ [⟨loop.nextTask, loop.time + delay, body⟩]
    nextTask := loop.nextTask + 1 }

/-- `cancel` of a task; a sleeping task never gets past its sleep. -/
def cancel (loop : EventLoop) : Option TaskId → EventLoop
  | none => loop
  | some task =>
      { loop with timers := loop.timers.filter fun timer => timer.task ≠ task }

/-- The sleeping timer task with the given id. -/
def timer? (loop : EventLoop) (task : TaskId) : Option Timer :=
  loop.timers.find? fun timer => timer.task = task

end EventLoop

/-- `_ConnectionManager`, together with its event loop. -/
structure ConnectionManager where
  clients : Dict WebSocket Client := ∅
  primary : Option WebSocket := none
  /-- The install that the empty primary slot is being held for. -/
  reservedFor : Option ClientId := none
  reserveTimer : Option TaskId := none
  request : Option Request := none
  loop : EventLoop := {}
  deriving DecidableEq

/-- A failed `self._clients[ws]`. -/
structure KeyError where
  key : WebSocket
  deriving DecidableEq

/-- Role changes of other sockets, to be announced. -/
abbrev Changes := List (WebSocket × RoleReason)

namespace ConnectionManager

variable (m : ConnectionManager)

/-! ## Queries -/

/-- `is_primary`. -/
def isPrimary (ws : WebSocket) : Bool := m.primary = some ws

/-- `role_of`. -/
def roleOf (ws : WebSocket) : Role :=
  if m.primary = some ws then .primary else .observer

/-- `self._clients[ws]`. -/
def lookup (ws : WebSocket) : Except KeyError Client :=
  match m.clients.get? ws with
  | none => .error ⟨ws⟩
  | some client => .ok client

/-- `supports_handoff`. -/
def supportsHandoff (ws : WebSocket) : Bool :=
  match m.clients.get? ws with
  | none => false
  | some client => handoffProtocol ≤ client.protocol

/-- `set_name`. -/
def setName (ws : WebSocket) (name : String) :
    Except KeyError ConnectionManager := do
  let _ ← m.lookup ws
  let stripped := Text.strip name
  let shown := if stripped = "" then "Unnamed Device" else stripped
  return { m with
    clients := m.clients.modify ws fun client => { client with name := shown } }

/-- One row of the roster. -/
def device (item : WebSocket × Client) : Device where
  connectionId := item.2.connectionId
  name := item.2.name
  role := m.roleOf item.1
  handoff := handoffProtocol ≤ item.2.protocol

/-- `roster`: every connected device, primary first. -/
def roster : List Device :=
  (sortedBy (fun item : WebSocket × Client =>
      decide (m.primary ≠ some item.1)) m.clients.entries).map m.device

/-- Recipients of a broadcast, primary first. -/
def targets : List WebSocket :=
  sortedBy (fun ws => decide (m.primary ≠ some ws)) m.clients.keys

/-- `_handoff_message`. -/
def handoffMessage : Message :=
  .handoff <|
    m.request.bind fun request =>
      (m.clients.get? request.requester).map fun client =>
        { requestId := request.requestId
          connectionId := client.connectionId
          name := client.name
          expiresIn := roundTo 2 (max 0 (request.expiresAt - m.loop.time)) }

/-- `_snapshot_for`: the role is looked up live, never cached. -/
def snapshotFor
    (app : AppState)
    (ws : WebSocket)
    (roleReason : Option RoleReason) : Except KeyError Message := do
  let client ← m.lookup ws
  return .state app.fullSnapshot (m.roleOf ws) client.connectionId
    handoffProtocol roleReason

/-! ## Connect and disconnect -/

/-- `_end_reservation`. -/
def endReservation : ConnectionManager :=
  { m with
    loop := m.loop.cancel m.reserveTimer
    reserveTimer := none
    reservedFor := none }

/-- `_start_reservation`. -/
def startReservation (clientId : ClientId) : ConnectionManager :=
  let m := m.endReservation
  { m with
    reservedFor := some clientId
    reserveTimer := some m.loop.nextTask
    loop := m.loop.createTask reclaimGrace (.reservationExpiry clientId) }

/-- `_clear_request`; the cleared request is `m.request`. -/
def clearRequest : ConnectionManager :=
  { m with
    request := none
    loop := m.loop.cancel (m.request.bind Request.timer) }

/-- `_assign_on_connect`. -/
def assignOnConnect
    (ws : WebSocket)
    (client : Client)
    (prevRole : Option String) : ConnectionManager × Changes :=
  let current := m.primary.bind m.clients.get?
  if client.clientId ≠ none ∧ m.reservedFor = client.clientId then
    ({ m.endReservation with primary := some ws }, [])
  else if client.clientId ≠ none ∧
      current.map Client.clientId = some client.clientId then
    -- Parallel sockets of one install: the newest takes over.
    ({ m with primary := some ws },
      m.primary.toList.map fun old => (old, .superseded))
  else if m.primary = none ∧ m.reservedFor = none ∧
      ¬(client.clientId ≠ none ∧ prevRole = some "observer") then
    ({ m with primary := some ws }, [])
  else (m, [])

/-- The client record that `connect` builds from the query parameters. -/
def newClient (params : QueryParams) (connectionId : String) : Client :=
  let protocol := (Text.int? (params.protocol.getD "1")).getD 1
  { connectionId := connectionId
    clientId :=
      if handoffProtocol ≤ protocol then ClientId.orNone params.clientId
      else none
    protocol := protocol }

/-- `connect`, from the moment the socket is accepted. -/
def connect
    (ws : WebSocket)
    (params : QueryParams)
    (connectionId : String) : ConnectionManager × Changes :=
  let client := newClient params connectionId
  assignOnConnect { m with clients := m.clients.insert ws client }
    ws client params.prevRole

/-- First half of `disconnect`: the socket leaves, and its own pending request
with it. -/
def forget (ws : WebSocket) : ConnectionManager :=
  let m := { m with clients := m.clients.erase ws }
  if m.request.map Request.requester = some ws then m.clearRequest else m

/-- The first connected socket of the same install. -/
def sibling? (client : Client) : Option WebSocket :=
  m.clients.findKey? fun other =>
    client.clientId ≠ none ∧ other.clientId = client.clientId

/-- `disconnect`. -/
def disconnect (ws : WebSocket) :
    Except KeyError (ConnectionManager × Changes) :=
  match m.clients.get? ws with
  | none => .ok (m, [])
  | some client =>
      let m := m.forget ws
      if m.primary ≠ some ws then .ok (m, [])
      else
        let m := { m with primary := none }
        match m.sibling? client with
        | some sibling => do
            let _ ← m.lookup sibling
            return ({ m with primary := some sibling }, [(sibling, .reclaimed)])
        | none =>
            match client.clientId with
            | some clientId => .ok (m.startReservation clientId, [])
            | none => .ok (m, [])

/-- `_reservation_expiry`, once its sleep is over. -/
def reservationExpiry (clientId : ClientId) :
    Except KeyError (ConnectionManager × List Todo) :=
  if m.reservedFor ≠ some clientId then .ok (m, [])
  else
    let m := { m with reserveTimer := none, reservedFor := none }
    match m.primary, m.request with
    | none, some request => do
        let m := { m.clearRequest with primary := some request.requester }
        let _ ← m.lookup request.requester
        return (m, announce [(request.requester, .primaryTimedOut)])
    | _, _ => .ok (m, [])

/-! ## Handoff -/

/-- The primary cannot answer a request: it is a legacy device. -/
def primaryOutdated : Bool :=
  match m.primary with
  | none => false
  | some ws => !m.supportsHandoff ws

/-- `request_control`; `requestId` is the id `uuid4` would return. -/
def requestControl (ws : WebSocket) (requestId : String) :
    Except KeyError (ConnectionManager × List Todo) :=
  if m.primary = some ws ∨ m.supportsHandoff ws = false then .ok (m, [])
  else
    match m.request with
    | some request =>
        if request.requester = ws then .ok (m, [.sendHandoff ws])
        else .ok (m, [.sendResult ws none .busy .anotherRequestPending])
    | none =>
        if m.primary = none ∧ m.reservedFor = none then do
          let _ ← m.lookup ws
          return ({ m with primary := some ws }, announce [(ws, .slotEmpty)])
        else if m.primaryOutdated then
          .ok (m, [.sendResult ws none .unavailable .primaryOutdated])
        else do
          -- Pending also while the slot is only reserved.
          let _ ← m.lookup ws
          return ({ m with
            request := some
              { requestId := requestId
                requester := ws
                expiresAt := m.loop.time + requestTimeout
                timer := some m.loop.nextTask }
            loop := m.loop.createTask requestTimeout
              (.requestExpiry requestId) }, [.broadcastHandoff])

/-- `_request_expiry`, once its sleep is over. -/
def requestExpiry (requestId : String) :
    ConnectionManager × List Todo :=
  match m.request with
  | none => (m, [])
  | some request =>
      if request.requestId ≠ requestId then (m, [])
      else
        -- The running task must not cancel itself.
        let m := { m with request := some { request with timer := none } }
        (m.clearRequest,
          [.sendResult request.requester (some requestId) .expired .noResponse,
            .broadcastHandoff])

/-- `cancel_request`. -/
def cancelRequest (ws : WebSocket) : ConnectionManager × List Todo :=
  match m.request with
  | none => (m, [])
  | some request =>
      if request.requester ≠ ws then (m, [])
      else
        (m.clearRequest,
          [.sendResult ws (some request.requestId) .cancelled .withdrawn,
            .broadcastHandoff])

/-- `_transfer`. -/
def transfer (target : WebSocket) (reason : RoleReason) :
    Except KeyError (ConnectionManager × Changes) := do
  let _ ← m.lookup target
  return ({ m with primary := some target },
    (target, reason) ::
      (m.primary.toList.filter fun old => old ≠ target).map
        fun old => (old, .handedOff))

/-- `respond`. -/
def respond (ws : WebSocket) (requestId : String) (accept : Bool) :
    Except KeyError (ConnectionManager × List Todo) :=
  if m.primary ≠ some ws then .ok (m, [])
  else
    match m.request with
    | none => .ok (m, [.sendHandoff ws])
    | some request =>
        if request.requestId ≠ requestId then .ok (m, [.sendHandoff ws])
        else if accept then do
          let (m, changes) ←
            m.clearRequest.transfer request.requester .requestAccepted
          return (m, announce changes)
        else
          .ok (m.clearRequest,
            [.sendResult request.requester (some request.requestId) .denied
                .declined,
              .broadcastHandoff])

/-- The device named by a connection id. -/
def named? (connectionId : String) : Option WebSocket :=
  m.clients.findKey? fun client => client.connectionId = connectionId

/-- The result that `grant` owes to a requester it passes over. -/
def passedOver (target : WebSocket) : List Todo :=
  (m.request.toList.filter fun request => request.requester ≠ target).map
    fun request =>
      .sendResult request.requester (some request.requestId) .cancelled
        .controlChangedHands

/-- `grant`. -/
def grant (ws : WebSocket) (connectionId : String) :
    Except KeyError (ConnectionManager × List Todo) :=
  if m.primary ≠ some ws then .ok (m, [])
  else
    match m.named? connectionId with
    | none => .ok (m, [])
    | some target =>
        if target = ws ∨ m.supportsHandoff target = false then .ok (m, [])
        else do
          let passedOver := m.passedOver target
          let (m, changes) ← m.clearRequest.transfer target .granted
          return (m, passedOver ++ announce changes)

/-- `release`. -/
def release : ConnectionManager × List Todo :=
  let goodbye := m.primary.toList.map Todo.sendReleased
  match m.request with
  | none =>
      ({ m.clearRequest with primary := none }, goodbye ++ announce [])
  | some request =>
      ({ m.clearRequest with primary := some request.requester },
        goodbye ++ announce [(request.requester, .slotEmpty)])

end ConnectionManager
end AbletonTracks
