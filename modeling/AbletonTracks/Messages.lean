import AbletonTracks.State

/-!
# Messages to the devices

The JSON messages that the WebSocket server sends, one constructor for each
`type`.
-/

namespace AbletonTracks

/-- A WebSocket connection; only its identity is ever inspected. -/
structure WebSocket where
  id : Nat
  deriving DecidableEq

/-- At most one device is primary; every other one only observes. -/
inductive Role
  | primary
  | observer
  deriving DecidableEq

/-- Why a device is pushed a fresh state: the `role_reason` field. -/
inductive RoleReason
  | granted
  | requestAccepted
  | handedOff
  | reclaimed
  | superseded
  | slotEmpty
  | primaryTimedOut
  deriving DecidableEq

/-- How a control request ended, or why it never became pending. -/
inductive RequestResult
  | denied
  | expired
  | cancelled
  | busy
  | unavailable
  deriving DecidableEq

/-- The `reason` field of a `control_request_result`. -/
inductive ResultReason
  | anotherRequestPending
  | primaryOutdated
  | noResponse
  | withdrawn
  | declined
  | controlChangedHands
  deriving DecidableEq

/-- One row of the who-is-connected list. -/
structure Device where
  connectionId : String
  name : String
  role : Role
  /-- The device speaks protocol 2, so control can be granted to it. -/
  handoff : Bool
  deriving DecidableEq

/-- The pending control request as the devices see it. -/
structure PendingRequest where
  requestId : String
  connectionId : String
  name : String
  /-- Relative seconds: the devices' clocks are not synchronized. -/
  expiresIn : ℚ
  deriving DecidableEq

/-- A message from the server to one device. -/
inductive Message
  | state
      (snapshot : FullSnapshot)
      (role : Role)
      (connectionId : String)
      (protocol : Int)
      (roleReason : Option RoleReason)
  | position (snapshot : PositionSnapshot)
  | tracks (tracks : List Track)
  | meters (levels : Library.Dict Int ℚ)
  | roster (devices : List Device)
  | handoff (pending : Option PendingRequest)
  | controlRequestResult
      (requestId : Option String)
      (result : RequestResult)
      (reason : ResultReason)
  | controlReleased
  | jumpQueued (songIndex sectionIndex : Int) (launchBeat : ℚ)
  deriving DecidableEq

/-- A message handed to one socket's `send_text`. -/
structure Frame where
  socket : WebSocket
  message : Message
  deriving DecidableEq

/-- What is left of a coroutine after its synchronous part: the awaits it goes
on to make, in order.  Whatever an entry reads, it reads when it is reached. -/
inductive Todo
  /-- Body of `announce`'s loop: a fresh snapshot for a device whose role
  changed, unless it has gone. -/
  | push (socket : WebSocket) (reason : RoleReason)
  /-- `manager.send(ws, _snapshot_for(ws))`: here a failed send raises. -/
  | sendState (socket : WebSocket)
  /-- `broadcast_handoff`. -/
  | broadcastHandoff
  /-- `broadcast_roster`. -/
  | broadcastRoster
  /-- `_send_handoff`. -/
  | sendHandoff (socket : WebSocket)
  /-- `_send_result`. -/
  | sendResult
      (socket : WebSocket)
      (requestId : Option String)
      (result : RequestResult)
      (reason : ResultReason)
  /-- The `control_released` message and the `close` after it. -/
  | sendReleased (socket : WebSocket)
  /-- `broadcast` of a message fixed by its caller. -/
  | broadcast (message : Message)
  /-- One `_safe_send_text` of a text fixed before its broadcast's loop. -/
  | deliver (socket : WebSocket) (message : Message)
  /-- `broadcast_full_state`. -/
  | broadcastFullState
  /-- Body of `broadcast_full_state`'s loop. -/
  | sendSnapshot (socket : WebSocket)
  deriving DecidableEq

/-- `announce`: push to every device whose role changed, then tell everyone
the pending request and the roster. -/
def announce (changes : List (WebSocket × RoleReason)) : List Todo :=
  (changes.map fun change => .push change.1 change.2) ++
    [.broadcastHandoff, .broadcastRoster]

end AbletonTracks
