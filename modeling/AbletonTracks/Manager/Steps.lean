import AbletonTracks.Library.Runs
import AbletonTracks.Manager.Defs

/-!
# Steps of the connection manager

The operations that the socket handlers and the two timers perform on the
manager, each taken as one step: the state change that happens before the
operation's first await, together with the awaits it still has to make.

`exec` is the machine whose runs are all orders of operations that handlers
and timers can produce: a socket connects once at a time, acts only while it
is connected, `release` is called by the primary's own handler only, and only
a sleeping timer fires.
-/

namespace AbletonTracks

open Library

/-- An operation on the connection manager.  Ids that the code draws from
`uuid4` are part of the operation. -/
inductive Op
  | connect (ws : WebSocket) (params : QueryParams) (connectionId : String)
  | setName (ws : WebSocket) (name : String)
  | disconnect (ws : WebSocket)
  | requestControl (ws : WebSocket) (requestId : String)
  | cancelRequest (ws : WebSocket)
  | respond (ws : WebSocket) (requestId : String) (accept : Bool)
  | grant (ws : WebSocket) (connectionId : String)
  | release (ws : WebSocket)
  /-- The sleep of a timer task is over. -/
  | fire (task : TaskId)
  /-- Nothing happens but the clock. -/
  | wait (time : ℚ)
  deriving DecidableEq

namespace ConnectionManager

/-- Run the coroutine of a timer task whose sleep is over. -/
def fire (m : ConnectionManager) (task : TaskId) :
    Except KeyError (ConnectionManager × List Todo) :=
  match m.loop.timer? task with
  | none => .ok (m, [])
  | some timer =>
      let m := { m with loop := m.loop.cancel (some task) }
      match timer.body with
      | .reservationExpiry clientId => m.reservationExpiry clientId
      | .requestExpiry requestId => .ok (m.requestExpiry requestId)

/-- An operation as its caller performs it: `websocket_endpoint` answers a
connect with the new device's own state and announces what `connect` and
`disconnect` return. -/
def apply (m : ConnectionManager) :
    Op → Except KeyError (ConnectionManager × List Todo)
  | .connect ws params connectionId =>
      let (m, changes) := m.connect ws params connectionId
      .ok (m, .sendState ws :: announce changes)
  | .setName ws name => do
      let m ← m.setName ws name
      return (m, [.broadcastRoster])
  | .disconnect ws => do
      let (m, changes) ← m.disconnect ws
      return (m, announce changes)
  | .requestControl ws requestId => m.requestControl ws requestId
  | .cancelRequest ws => .ok (m.cancelRequest ws)
  | .respond ws requestId accept => m.respond ws requestId accept
  | .grant ws connectionId => m.grant ws connectionId
  | .release _ => .ok m.release
  | .fire task => m.fire task
  | .wait time => .ok ({ m with loop := { m.loop with time := time } }, [])

/-- When a handler or a timer can perform an operation. -/
def Enabled (m : ConnectionManager) : Op → Prop
  | .connect ws _ _ => ws ∉ m.clients
  | .setName ws _ => ws ∈ m.clients
  | .disconnect ws => ws ∈ m.clients
  | .requestControl ws _ => ws ∈ m.clients
  | .cancelRequest ws => ws ∈ m.clients
  | .respond ws _ _ => ws ∈ m.clients
  | .grant ws _ => ws ∈ m.clients
  | .release ws => m.primary = some ws
  | .fire task => m.loop.timer? task ≠ none
  | .wait _ => True

instance (m : ConnectionManager) : (op : Op) → Decidable (m.Enabled op)
  | .connect ws _ _ => inferInstanceAs (Decidable (ws ∉ m.clients))
  | .setName ws _ => inferInstanceAs (Decidable (ws ∈ m.clients))
  | .disconnect ws => inferInstanceAs (Decidable (ws ∈ m.clients))
  | .requestControl ws _ => inferInstanceAs (Decidable (ws ∈ m.clients))
  | .cancelRequest ws => inferInstanceAs (Decidable (ws ∈ m.clients))
  | .respond ws _ _ => inferInstanceAs (Decidable (ws ∈ m.clients))
  | .grant ws _ => inferInstanceAs (Decidable (ws ∈ m.clients))
  | .release ws => inferInstanceAs (Decidable (m.primary = some ws))
  | .fire task => inferInstanceAs (Decidable (m.loop.timer? task ≠ none))
  | .wait _ => inferInstanceAs (Decidable True)

/-- The machine: the state an enabled operation leaves behind.  An operation
that raises takes no step. -/
def exec (m : ConnectionManager) (op : Op) : Option ConnectionManager :=
  if m.Enabled op then
    match m.apply op with
    | .ok (after, _) => some after
    | .error _ => none
  else none

/-- The frames that one entry of a to-do list sends when nothing interrupts
it. -/
def framesOf (m : ConnectionManager) (app : AppState) :
    Todo → Except KeyError (List Frame)
  | .push ws reason =>
      if ws ∈ m.clients then do
        let message ← m.snapshotFor app ws (some reason)
        return [⟨ws, message⟩]
      else .ok []
  | .sendState ws => do
      let message ← m.snapshotFor app ws none
      return [⟨ws, message⟩]
  | .broadcastHandoff =>
      .ok ((m.clients.keys.filter m.supportsHandoff).map
        fun ws => ⟨ws, m.handoffMessage⟩)
  | .broadcastRoster =>
      .ok (m.targets.map fun ws => ⟨ws, .roster m.roster⟩)
  | .sendHandoff ws =>
      .ok (if m.supportsHandoff ws then [⟨ws, m.handoffMessage⟩] else [])
  | .sendResult ws requestId result reason =>
      .ok (if m.supportsHandoff ws then
          [⟨ws, .controlRequestResult requestId result reason⟩]
        else [])
  | .sendReleased ws => .ok [⟨ws, .controlReleased⟩]
  | .broadcast message => .ok (m.targets.map fun ws => ⟨ws, message⟩)
  | .deliver ws message => .ok [⟨ws, message⟩]
  | .broadcastFullState =>
      m.targets.mapM fun ws => do
        let message ← m.snapshotFor app ws none
        return ⟨ws, message⟩
  | .sendSnapshot ws => do
      let message ← m.snapshotFor app ws none
      return [⟨ws, message⟩]

/-- The frames a whole to-do list sends when nothing interrupts it. -/
def flush (m : ConnectionManager) (app : AppState) :
    List Todo → Except KeyError (List Frame)
  | [] => .ok []
  | todo :: rest => do
      let first ← m.framesOf app todo
      let others ← m.flush app rest
      return first ++ others

/-- The frames an operation sends when nothing interrupts it, in order. -/
def sends (m : ConnectionManager) (app : AppState) (op : Op) : List Frame :=
  match m.apply op with
  | .error _ => []
  | .ok (after, todo) =>
      match after.flush app todo with
      | .error _ => []
      | .ok frames => frames

end ConnectionManager
end AbletonTracks
