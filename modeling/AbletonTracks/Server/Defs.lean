import AbletonTracks.Bridge.CueCache
import AbletonTracks.Manager.Steps

/-!
# The WebSocket server

The coroutines of the server: one `websocket_endpoint` for every socket, the
tasks of the bridge's callbacks, and the timers once their sleep is over.  A
coroutine runs uninterrupted from one send to the next.  Every send may
suspend, so a step of `System.exec` lets one coroutine run until it hands a
message to a socket, waits for its socket's next message, or ends.

A message counts as sent when it is handed to `send_text`; the send itself is
over when its coroutine goes on, and may then raise if the peer has gone.
-/

namespace AbletonTracks

open Library

/-! ## Coroutines -/

/-- A coroutine of the server. -/
inductive Coroutine
  /-- `websocket_endpoint` of one socket. -/
  | handler (ws : WebSocket)
  /-- A task: a broadcast, or a timer past its sleep. -/
  | task (number : Nat)
  deriving DecidableEq

/-- What `_handle_jump` still needs after its broadcast. -/
structure Jump where
  target : Section
  beatsPerBar : Int
  launchBeat : Int
  deriving DecidableEq

/-- What a coroutine goes on to do when its to-do list is done. -/
inductive Next
  /-- The handler waits for the next message of its socket. -/
  | receive
  /-- The second half of `_handle_jump`, then the next message. -/
  | land (jump : Jump)
  /-- The handler returns, so its `finally` comes next. -/
  | leave
  /-- The coroutine ends. -/
  | finish
  deriving DecidableEq

/-- Where a coroutine stands. -/
inductive Phase
  /-- Created, but not started. -/
  | ready (todo : List Todo) (next : Next)
  /-- Suspended in a send; a guarded send swallows what it raises. -/
  | sending (ws : WebSocket) (guarded : Bool) (rest : List Todo) (next : Next)
  /-- Suspended in `iter_text`. -/
  | receiving
  | done
  deriving DecidableEq

/-- What a coroutine still has to do before its `Next`. -/
def Phase.todo : Phase → List Todo
  | .ready todo _ => todo
  | .sending _ _ rest _ => rest
  | .receiving => []
  | .done => []

/-- What comes after the to-do list. -/
def Phase.next? : Phase → Option Next
  | .ready _ next => some next
  | .sending _ _ _ next => some next
  | .receiving => none
  | .done => none

/-- A message from a device, with the fields that its handling reads.  An
ill-typed field is `none` where its type matters. -/
inductive ClientMessage
  /-- No JSON: `json.loads` raises a `JSONDecodeError`. -/
  | badJson
  /-- JSON, but no object: `msg.get` raises. -/
  | notAnObject
  | refresh
  | register (name : String)
  /-- `requestId` is the id `uuid4` would return. -/
  | requestControl (requestId : String)
  | cancelControlRequest
  | jump (songIndex sectionIndex : Option Int)
  | muteTrack (trackIndex : Option Number) (muted : Bool)
  | play
  | stop
  /-- `transport` with another action. -/
  | otherTransport
  | releaseControl
  | respondControl (requestId : String) (accept : Bool)
  | grantControl (connectionId : String)
  | generateCues (trackName : String)
  | analyzeGuide
  | unknown
  deriving DecidableEq

/-- A frame together with the coroutine that sent it. -/
structure Sent where
  sender : Coroutine
  frame : Frame
  deriving DecidableEq

/-- The server: the manager, the bridge, the coroutines, and what they have
sent so far. -/
structure System where
  manager : ConnectionManager := {}
  ableton : AbletonBridge := {}
  coroutines : Dict Coroutine Phase := ∅
  nextTask : Nat := 0
  /-- Sockets whose peer has gone. -/
  gone : List WebSocket := []
  sent : List Sent := []
  /-- Commands to Ableton, with the socket whose handler sent them. -/
  commands : List (Option WebSocket × Command) := []
  /-- Tasks that ended by raising. -/
  failed : List Coroutine := []

/-! ## The next send -/

/-- A send that a coroutine is about to make. -/
structure Sending where
  frame : Frame
  guarded : Bool
  /-- What is left of the to-do list after it. -/
  rest : List Todo
  deriving DecidableEq

namespace ConnectionManager

/-- The loop of `broadcast`: its recipients and its text are fixed. -/
def deliverAll (message : Message) : List WebSocket → Option Sending
  | [] => none
  | ws :: others =>
      some ⟨⟨ws, message⟩, true, others.map fun other => .deliver other message⟩

/-- The first send of an entry, if it sends anything. -/
def firstSend (m : ConnectionManager) (app : AppState) :
    Todo → Except KeyError (Option Sending)
  | .push ws reason =>
      if ws ∈ m.clients then do
        let message ← m.snapshotFor app ws (some reason)
        return some ⟨⟨ws, message⟩, true, []⟩
      else .ok none
  | .sendState ws => do
      let message ← m.snapshotFor app ws none
      return some ⟨⟨ws, message⟩, false, []⟩
  | .broadcastHandoff =>
      .ok (deliverAll m.handoffMessage
        (m.clients.keys.filter m.supportsHandoff))
  | .broadcastRoster => .ok (deliverAll (.roster m.roster) m.targets)
  | .sendHandoff ws =>
      .ok (if m.supportsHandoff ws then some ⟨⟨ws, m.handoffMessage⟩, true, []⟩
        else none)
  | .sendResult ws requestId result reason =>
      .ok (if m.supportsHandoff ws then
          some ⟨⟨ws, .controlRequestResult requestId result reason⟩, true, []⟩
        else none)
  | .sendReleased ws => .ok (some ⟨⟨ws, .controlReleased⟩, true, []⟩)
  | .broadcast message => .ok (deliverAll message m.targets)
  | .deliver ws message => .ok (some ⟨⟨ws, message⟩, true, []⟩)
  | .broadcastFullState =>
      match m.targets with
      | [] => .ok none
      | ws :: others => do
          let message ← m.snapshotFor app ws none
          return some ⟨⟨ws, message⟩, true, others.map Todo.sendSnapshot⟩
  | .sendSnapshot ws => do
      let message ← m.snapshotFor app ws none
      return some ⟨⟨ws, message⟩, true, []⟩

/-- The next send of a coroutine, if it makes any. -/
def nextSend (m : ConnectionManager) (app : AppState) :
    List Todo → Except KeyError (Option Sending)
  | [] => .ok none
  | entry :: later =>
      match m.firstSend app entry with
      | .error raised => .error raised
      | .ok none => m.nextSend app later
      | .ok (some sending) =>
          .ok (some { sending with rest := sending.rest ++ later })

end ConnectionManager

/-! ## Running a coroutine -/

namespace System

variable (s : System)

/-- Where a coroutine stands. -/
def phase? (c : Coroutine) : Option Phase := s.coroutines.get? c

/-- A coroutine comes to stand somewhere else. -/
def enter (c : Coroutine) (phase : Phase) : System :=
  { s with coroutines := s.coroutines.insert c phase }

/-- `create_task`. -/
def createTask (todo : List Todo) : System :=
  { s.enter (.task s.nextTask) (.ready todo .finish) with
    nextTask := s.nextTask + 1 }

/-- One effect of the bridge; `origin` is the socket whose handler caused it.
A broadcast of tracks or levels has them as they are now; in the source it
encodes, when it starts, the list or dictionary that the state holds now, with
what has been changed in place since (see `MeterFeed`). -/
def perform (origin : Option WebSocket) : Effect → System
  | .send command => { s with commands := s.commands ++ [(origin, command)] }
  | .positionUpdate =>
      s.createTask [.broadcast (.position s.ableton.state.positionSnapshot)]
  | .stateChange => s.createTask [.broadcastFullState]
  | .tracksChange => s.createTask [.broadcast (.tracks s.ableton.state.tracks)]
  | .meterUpdate =>
      s.createTask [.broadcast (.meters s.ableton.state.trackMeters)]

/-- Effects in order. -/
def performAll (origin : Option WebSocket) (effects : List Effect) : System :=
  effects.foldl (fun s effect => s.perform origin effect) s

/-- A coroutine hands a message to a socket. -/
def suspend (c : Coroutine) (sending : Sending) (next : Next) : System :=
  { s.enter c
      (.sending sending.frame.socket sending.guarded sending.rest next) with
    sent := s.sent ++ [⟨c, sending.frame⟩] }

/-- A coroutine ends by raising. -/
def fail (c : Coroutine) : System :=
  { s.enter c .done with failed := s.failed ++ [c] }

/-- Run the last to-do list of a coroutine up to its next send. -/
def runLast (c : Coroutine) (todo : List Todo) : System :=
  match s.manager.nextSend s.ableton.state todo with
  | .error _ => s.fail c
  | .ok none => s.enter c .done
  | .ok (some sending) => s.suspend c sending .finish

/-- The `finally` of `websocket_endpoint`; a task has none. -/
def unwind (c : Coroutine) : System :=
  match c with
  | .task _ => s.fail c
  | .handler ws =>
      match s.manager.apply (.disconnect ws) with
      | .error _ => s.fail c
      | .ok (m, todo) => { s with manager := m }.runLast c todo

/-- The second half of `_handle_jump`. -/
def land (ws : WebSocket) (jump : Jump) : System :=
  let (fired, effects) := s.ableton.fireCueClipForSection jump.target.name
  if fired then
    { s.performAll (some ws) effects with
      ableton := s.ableton.scheduleDownbeatRetarget jump.launchBeat
        (jump.target.position + jump.beatsPerBar) }
  else
    { s.performAll (some ws)
        (AbletonBridge.jumpToCueIndex jump.target.cueIndex) with
      ableton := s.ableton.clearPendingRetarget }

/-- A coroutine whose to-do list is done goes on. -/
def conclude (c : Coroutine) : Next → System
  | .receive => s.enter c .receiving
  | .land jump =>
      match c with
      | .handler ws => (s.land ws jump).enter c .receiving
      | .task _ => s.enter c .done
  | .leave => s.unwind c
  | .finish => s.enter c .done

/-- Run a coroutine up to its next send. -/
def run (c : Coroutine) (todo : List Todo) (next : Next) : System :=
  match s.manager.nextSend s.ableton.state todo with
  | .error _ => s.unwind c
  | .ok none => s.conclude c next
  | .ok (some sending) => s.suspend c sending next

/-- A coroutine performs an operation of the manager and runs on. -/
def operate (c : Coroutine) (op : Op) (next : Next) : System :=
  match s.manager.apply op with
  | .error _ => s.unwind c
  | .ok (m, todo) => { s with manager := m }.run c todo next

/-! ## Messages from the devices -/

/-- Python's `items[index]`: a negative index counts from the end. -/
def itemAt? {α : Type} (items : List α) (index : Int) : Option α :=
  if 0 ≤ index then items[index.toNat]?
  else if 0 ≤ items.length + index then
    items[(items.length + index).toNat]?
  else none

/-- `_state.songs[song_idx]["sections"][section_idx]`. -/
def sectionAt? (state : AppState) (songIndex sectionIndex : Int) :
    Option Section := do
  let song ← itemAt? state.songs songIndex
  itemAt? song.sections sectionIndex

/-- The jump to a section, with its 1-bar-quantized launch beat. -/
def jumpTo (state : AppState) (target : Section) : Jump :=
  let beatsPerBar :=
    if state.timeSignatureNumerator = 0 then 4
    else state.timeSignatureNumerator
  { target := target
    beatsPerBar := beatsPerBar
    launchBeat :=
      ((state.currentPosition / beatsPerBar).floor + 1) * beatsPerBar }

/-- Bind the Arrangement Loop to a `Loop` section, or release it. -/
def loopFor (target : Section) : List Effect :=
  match target.isLoop, target.length with
  | true, some length =>
      if length ≠ 0 then AbletonBridge.setLoopRegion target.position length
      else AbletonBridge.disableLoop
  | _, _ => AbletonBridge.disableLoop

/-- Queue a jump in the shared state. -/
def queue (songIndex sectionIndex : Int) (jump : Jump) : System :=
  { s with
    ableton := { s.ableton with
      state := { s.ableton.state with
        queuedSongIndex := songIndex
        queuedSectionIndex := sectionIndex
        queuedLaunchBeat := some jump.launchBeat } } }

/-- `_handle_jump`. -/
def handleJump (ws : WebSocket) (songIndex sectionIndex : Option Int) :
    System :=
  match songIndex, sectionIndex with
  | some songIndex, some sectionIndex =>
      match sectionAt? s.ableton.state songIndex sectionIndex with
      | none => s
      | some target =>
          let jump := jumpTo s.ableton.state target
          ((s.queue songIndex sectionIndex jump).performAll (some ws)
              (loopFor target)).run (.handler ws)
            [.broadcast (.jumpQueued songIndex sectionIndex jump.launchBeat)]
            (.land jump)
  | _, _ => s

/-- The `stop` action of `transport`. -/
def stop (ws : WebSocket) : System :=
  { s.performAll (some ws) AbletonBridge.stopPlayback with
    ableton :=
      { s.ableton with
        state := { s.ableton.state with
          queuedSongIndex := -1
          queuedSectionIndex := -1
          queuedLaunchBeat := none } }.clearPendingRetarget }

/-- Messages that only the primary may send. -/
def obey (ws : WebSocket) : ClientMessage → System
  | .jump songIndex sectionIndex => s.handleJump ws songIndex sectionIndex
  | .muteTrack none _ => s.unwind (.handler ws)
  | .muteTrack (some trackIndex) muted =>
      if ¬trackIndex.nonneg then s
      else if packs trackIndex then
        s.performAll (some ws) (AbletonBridge.setTrackMute trackIndex muted)
      else s.unwind (.handler ws)
  | .play => s.performAll (some ws) AbletonBridge.play
  | .stop => s.stop ws
  | .releaseControl => s.operate (.handler ws) (.release ws) .leave
  | .respondControl requestId accept =>
      s.operate (.handler ws) (.respond ws requestId accept) .receive
  | .grantControl connectionId =>
      s.operate (.handler ws) (.grant ws connectionId) .receive
  | .generateCues trackName =>
      s.performAll (some ws) (AbletonBridge.generateCuesFromTrack trackName)
  | _ => s

/-- One round of `websocket_endpoint`'s loop. -/
def hear (ws : WebSocket) : ClientMessage → System
  | .badJson => s
  | .notAnObject => s.unwind (.handler ws)
  | .refresh =>
      (s.performAll (some ws) AbletonBridge.refresh).run (.handler ws)
        [.sendState ws] .receive
  | .register name => s.operate (.handler ws) (.setName ws name) .receive
  | .requestControl requestId =>
      s.operate (.handler ws) (.requestControl ws requestId) .receive
  | .cancelControlRequest =>
      s.operate (.handler ws) (.cancelRequest ws) .receive
  | message => if s.manager.isPrimary ws then s.obey ws message else s

/-! ## The machine -/

/-- What can happen to the server. -/
inductive Event
  /-- A socket is accepted; the id is the one `uuid4` returns. -/
  | accept (ws : WebSocket) (params : QueryParams) (connectionId : String)
  | receive (ws : WebSocket) (message : ClientMessage)
  /-- `iter_text` finds that the peer has gone. -/
  | hangUp (ws : WebSocket)
  /-- A created task starts, or a send is over, perhaps by raising. -/
  | resume (c : Coroutine) (raised : Bool)
  /-- The sleep of a timer is over. -/
  | fire (timer : TaskId)
  | peerGone (ws : WebSocket)
  | wait (time : ℚ)
  | ableton (event : AbletonBridge.Event)

/-- A coroutine goes on after a send, or starts. -/
def resume (c : Coroutine) (raised : Bool) : Option System :=
  match s.phase? c with
  | some (.ready todo next) =>
      if raised then none else some (s.run c todo next)
  | some (.sending ws guarded rest next) =>
      if raised ∧ ws ∉ s.gone then none
      else if raised ∧ ¬guarded then some (s.unwind c)
      else some (s.run c rest next)
  | _ => none

/-- A timer whose time has come runs as a task of its own. -/
def fire (timer : TaskId) : Option System :=
  match s.manager.loop.timer? timer with
  | none => none
  | some sleeping =>
      if sleeping.due ≤ s.manager.loop.time then
        some ({ s with nextTask := s.nextTask + 1 }.operate
          (.task s.nextTask) (.fire timer) .finish)
      else none

/-- The machine: the state an event leaves behind, or none when it cannot
happen. -/
def exec : Event → Option System
  | .accept ws params connectionId =>
      if s.phase? (.handler ws) = none then
        some ((s.performAll (some ws) AbletonBridge.refresh).operate
          (.handler ws) (.connect ws params connectionId) .receive)
      else none
  | .receive ws message =>
      if s.phase? (.handler ws) = some .receiving then some (s.hear ws message)
      else none
  | .hangUp ws =>
      if s.phase? (.handler ws) = some .receiving ∧ ws ∈ s.gone then
        some (s.unwind (.handler ws))
      else none
  | .resume c raised => s.resume c raised
  | .fire timer => s.fire timer
  | .peerGone ws => some { s with gone := s.gone ++ [ws] }
  | .wait time =>
      if s.manager.loop.time ≤ time then
        some { s with manager := { s.manager with
          loop := { s.manager.loop with time := time } } }
      else none
  | .ableton event =>
      let (ableton, effects) := s.ableton.handle event
      some ({ s with ableton := ableton }.performAll none effects)

/-! ## Events of the examples -/

/-- The query of a handoff-capable device. -/
def stageTablet : QueryParams := ⟨some "2", some "stage", none⟩

/-- A coroutine goes on after each of its next sends. -/
def resumes (c : Coroutine) (count : Nat) : List Event :=
  List.replicate count (.resume c false)

/-- Ableton replies with one song of two sections. -/
def songOfTwo : Event :=
  .ableton (.datagram 0 AbletonBridge.cuePointsAddress
    (AbletonBridge.oneCueReply "== A ==" 0 ++
      AbletonBridge.oneCueReply "Verse" 8))

end System
end AbletonTracks
