import AbletonTracks.Osc.Bundle
import AbletonTracks.Osc.RoundTrip
import AbletonTracks.Remote.Listeners

/-!
# The OSC server in Ableton

`AbletonOSC/abletonosc/osc_server.py`: the datagrams that have arrived are
handled once per tick, until none is left or one of them raises.  What the log
says of errors goes to the last client, by `LiveOSCErrorLogHandler` in
`AbletonOSC/manager.py`.

`reload` is the callback of `/live/api/reload` in the same file.
-/

namespace AbletonTracks

open Library

/-- What a callback, its reply or `re.match` may raise. -/
inductive CallError
  | value
  | attribute
  /-- `osc_message.ParseError`. -/
  | parse
  /-- `OSError`; `process` passes over some of its numbers. -/
  | os (benign : Bool)
  | other
  deriving DecidableEq

/-- The class of an error of python-osc. -/
def CallError.ofOsc : OscError → CallError
  | .value | .unicodeDecode => .value
  | .messageParse => .parse
  | _ => .other

/-- A datagram and the host that sent it, or that it is for. -/
structure Datagram where
  data : List UInt8
  host : String
  deriving DecidableEq

/-- `OSCServer`; `world` is whatever else the callbacks read and write. -/
structure OscServer (ι σ : Type) where
  /-- `_callbacks`. -/
  callbacks : Dict String ι := ∅
  world : σ
  /-- The host of `_remote_addr`. -/
  remoteHost : String := "127.0.0.1"
  sent : List Datagram := []
  deriving DecidableEq

/-- What a callback does: it returns arguments of a reply, or nothing, or
raises. -/
abbrev Call (ι σ : Type) :=
  ι → List ArgValue → OscServer ι σ →
    OscServer ι σ × Except CallError (Option (List ArgValue))

/-- A method's new state, and what it raises. -/
abbrev Raising (ι σ : Type) := OscServer ι σ × Option CallError

/-- A text that a message can carry. -/
abbrev PlainText := {text : String // Char.ofNat 0 ∉ text.toList}

/-- What the server is given: its callbacks, `re.match`, which may raise, the
texts of an exception and of its traceback, and the depth to which bundles are
parsed. -/
structure OscEnv (ι σ : Type) where
  call : Call ι σ
  reMatch : String → String → Option Bool
  str : OscServer ι σ → CallError → PlainText
  formatExc : OscServer ι σ → CallError → PlainText
  depth : Nat

namespace OscServer

variable {ι σ : Type} (env : OscEnv ι σ)

/-- An error is logged, and what follows `AbletonOSC: ` is sent. -/
def logError (s : OscServer ι σ) (text : String) : Raising ι σ :=
  match OscMessageBuilder.message "/live/error" [.string text] with
  | .ok msg => ({ s with sent := s.sent ++ [⟨msg.dgram, s.remoteHost⟩] }, none)
  | .error failure => (s, some (.ofOsc failure))

/-- A text without a NUL is logged and sent. -/
theorem logError_quiet
    (s : OscServer ι σ)
    {text : String}
    (plain : Char.ofNat 0 ∉ text.toList) :
    (s.logError text).2 = none := by
  obtain ⟨msg, built, _⟩ := @OscMessageBuilder.exists_message "/live/error"
    [.string text] (by decide) (by decide) (by
      intro value member leaf inValue
      obtain rfl := List.mem_singleton.mp member
      obtain rfl := List.mem_singleton.mp inValue
      exact ⟨trivial, plain⟩)
  rw [logError, built]

/-- `send`. -/
def send
    (s : OscServer ι σ)
    (address : String)
    (params : List ArgValue)
    (remoteHost : String) : Raising ι σ :=
  match OscMessageBuilder.message address params with
  | .ok msg => ({ s with sent := s.sent ++ [⟨msg.dgram, remoteHost⟩] }, none)
  | .error .build =>
      s.logError ("OSC build error: " ++ (env.formatExc s .other).val)
  | .error failure => (s, some (.ofOsc failure))

/-- The loop over all callbacks of `process_message`; what `re.match` raises is
none of the errors that the loop passes over. -/
def callMatching
    (regex : String)
    (params : List ArgValue)
    (remoteHost : String) :
    List (String × ι) → OscServer ι σ → Raising ι σ
  | [], s => (s, none)
  | (address, callback) :: others, s =>
      match env.reMatch regex address with
      | none => (s, some .other)
      | some false => callMatching regex params remoteHost others s
      | some true =>
          match env.call callback params s with
          | (s, .error .value) | (s, .error .attribute) | (s, .ok none) =>
              callMatching regex params remoteHost others s
          | (s, .error raised) => (s, some raised)
          | (s, .ok (some rv)) =>
              match s.send env address rv remoteHost with
              | (s, none) => callMatching regex params remoteHost others s
              | (s, some raised) => (s, some raised)

/-- `process_message`. -/
def processMessage
    (message : OscMessage)
    (remoteHost : String)
    (s : OscServer ι σ) : Raising ι σ :=
  match s.callbacks.get? message.address with
  | some callback =>
      match env.call callback message.params s with
      | (s, .error raised) => (s, some raised)
      | (s, .ok none) => (s, none)
      | (s, .ok (some rv)) => s.send env message.address rv remoteHost
  | none =>
      if '*' ∈ message.address.toList then
        callMatching env (message.address.replace "*" "[^/]+")
          message.params remoteHost s.callbacks.entries s
      else s.logError ("Unknown OSC address: " ++ message.address)

mutual

/-- One round of the loop of `process_bundle`. -/
def processContent
    (remoteHost : String) :
    OscContent → OscServer ι σ → Raising ι σ
  | .message m, s => processMessage env m remoteHost s
  | .bundle _ _ contents, s => processContents remoteHost contents s

/-- `process_bundle`. -/
def processContents
    (remoteHost : String) :
    List OscContent → OscServer ι σ → Raising ι σ
  | [], s => (s, none)
  | content :: contents, s =>
      match processContent remoteHost content s with
      | (s, some raised) => (s, some raised)
      | (s, none) => processContents remoteHost contents s

end

/-- `except ParseError`, of the messages; that of the bundles is a class of
its own. -/
def unlessParse (kind : String) : Raising ι σ → Raising ι σ
  | (s, some .parse) =>
      s.logError ("Error parsing OSC " ++ kind ++ ": " ++
        (env.formatExc s .parse).val)
  | result => result

/-- `parse_bundle`, unless the depth does not do. -/
def parseBundle (datagram : Datagram) (s : OscServer ι σ) :
    Option (Raising ι σ) :=
  if OscBundle.dgramIsBundle datagram.data then
    (OscBundle.parse env.depth datagram.data).map fun
      | .error failure => unlessParse env "bundle" (s, some (.ofOsc failure))
      | .ok bundle =>
          unlessParse env "bundle" (processContent env datagram.host bundle s)
  else
    match OscMessage.parse datagram.data with
    | .error failure =>
        some (unlessParse env "message" (s, some (.ofOsc failure)))
    | .ok message =>
        some (unlessParse env "message"
          (processMessage env message datagram.host s))

/-- One round of the loop of `process`. -/
def handle (datagram : Datagram) (s : OscServer ι σ) : Option (Raising ι σ) :=
  parseBundle env datagram { s with remoteHost := datagram.host }

/-- The `except` clauses of `process`; by `logError_quiet` they raise nothing. -/
def report (s : OscServer ι σ) : CallError → OscServer ι σ
  | .os true => s
  | .os false =>
      (s.logError ("Socket error: " ++ (env.formatExc s (.os false)).val)).1
  | raised =>
      (s.logError ("Error handling OSC message: " ++
        (env.str s raised).val)).1

/-- `process`, with what it leaves in the socket. -/
def process :
    List Datagram → OscServer ι σ → Option (OscServer ι σ × List Datagram)
  | [], s => some (s, [])
  | datagram :: queue, s =>
      match handle env datagram s with
      | none => none
      | some (s, none) => process queue s
      | some (s, some raised) => some (s.report env raised, queue)

/-! ## In the order of their arrival -/

/-- Datagrams handled one after the other, whatever they raise. -/
def handleAll : List Datagram → OscServer ι σ → Option (OscServer ι σ)
  | [], s => some s
  | datagram :: queue, s =>
      match handle env datagram s with
      | none => none
      | some (s, none) => handleAll queue s
      | some (s, some raised) => handleAll queue (s.report env raised)

/-- How many of them raise. -/
def raisingCount : List Datagram → OscServer ι σ → Nat
  | [], _ => 0
  | datagram :: queue, s =>
      match handle env datagram s with
      | none => 0
      | some (s, none) => raisingCount queue s
      | some (s, some raised) => raisingCount queue (s.report env raised) + 1

variable {env} {s middle after : OscServer ι σ}

theorem handleAll_append
    {early late : List Datagram}
    (handled : handleAll env early s = some middle) :
    handleAll env (early ++ late) s = handleAll env late middle := by
  induction early generalizing s with
  | nil =>
      obtain rfl := Option.some.inj handled
      rfl
  | cons datagram queue inductionHypothesis =>
      rw [List.cons_append, handleAll]
      rw [handleAll] at handled
      split at handled
      · cases handled
      · exact inductionHypothesis handled
      · exact inductionHypothesis handled

/-- A tick handles the first datagrams, up to one that raises. -/
theorem exists_of_process
    {queue left : List Datagram}
    (processed : process env queue s = some (after, left)) :
    ∃ handled, queue = handled ++ left ∧
      handleAll env handled s = some after := by
  induction queue generalizing s with
  | nil =>
      cases processed
      exact ⟨[], rfl, rfl⟩
  | cons datagram queue inductionHypothesis =>
      rw [process] at processed
      split at processed
      · cases processed
      · rename_i result handles
        obtain ⟨handled, rfl, all⟩ := inductionHypothesis processed
        refine ⟨datagram :: handled, rfl, ?_⟩
        rw [handleAll, handles]
        exact all
      · rename_i result raised handles
        cases processed
        refine ⟨[datagram], rfl, ?_⟩
        rw [handleAll, handles]
        rfl

/-- A tick empties the socket, or it ends with a datagram that raises. -/
theorem raisingCount_of_process
    {queue left : List Datagram}
    (processed : process env queue s = some (after, left)) :
    left = [] ∨
      raisingCount env queue s = raisingCount env left after + 1 := by
  induction queue generalizing s with
  | nil =>
      cases processed
      exact .inl rfl
  | cons datagram queue inductionHypothesis =>
      rw [process] at processed
      rw [raisingCount]
      split at processed
      · cases processed
      · exact inductionHypothesis processed
      · cases processed
        exact .inr rfl

/-- A tick that hangs leaves nothing to handle either. -/
theorem handleAll_of_process_eq_none
    {queue : List Datagram}
    (hangs : process env queue s = none) :
    handleAll env queue s = none := by
  induction queue generalizing s with
  | nil => cases hangs
  | cons datagram queue inductionHypothesis =>
      rw [process] at hangs
      rw [handleAll]
      split at hangs
      · rfl
      · exact inductionHypothesis hangs
      · cases hangs

end OscServer

/-- The server with its socket. -/
structure OscSocket (ι σ : Type) where
  server : OscServer ι σ
  queue : List Datagram := []
  deriving DecidableEq

/-- What happens at the socket. -/
inductive SocketEvent
  | arrive (datagram : Datagram)
  | tick
  deriving DecidableEq

/-- The datagram that arrives. -/
def SocketEvent.arrived? : SocketEvent → Option Datagram
  | .arrive datagram => some datagram
  | .tick => none

namespace OscSocket

variable {ι σ : Type} (env : OscEnv ι σ)

/-- The machine; a tick for which the depth does not do does not end. -/
def exec (s : OscSocket ι σ) : SocketEvent → Option (OscSocket ι σ)
  | .arrive datagram => some { s with queue := s.queue ++ [datagram] }
  | .tick =>
      (s.server.process env s.queue).map fun result => ⟨result.1, result.2⟩

/-- Several ticks without an arrival. -/
def ticks : Nat → OscSocket ι σ → Option (OscSocket ι σ)
  | 0, s => some s
  | count + 1, s => (exec env s .tick).bind (ticks count)

variable {env} {s : OscSocket ι σ}

open OscServer

/-- After every run the server is where the datagrams that it has taken, in
the order of their arrival, have led it: whatever the ticks were, none was
handled twice, and those not handled are waiting. -/
theorem exists_handled_of_run
    {start : OscServer ι σ}
    {steps : List (Step (OscSocket ι σ) SocketEvent)}
    (run : Run (exec env) ⟨start, []⟩ steps s) :
    ∃ handled,
      steps.filterMap (fun step => step.label.arrived?) =
        handled ++ s.queue ∧
      handleAll env handled start = some s.server := by
  induction run with
  | nil => exact ⟨[], rfl, rfl⟩
  | @snoc past current after event earlier taken inductionHypothesis =>
      obtain ⟨handled, arrived, all⟩ := inductionHypothesis
      rw [List.filterMap_append, arrived]
      cases event with
      | arrive datagram =>
          obtain rfl := Option.some.inj taken
          exact ⟨handled, List.append_assoc _ _ _, all⟩
      | tick =>
          obtain ⟨⟨server, left⟩, processed, rfl⟩ :=
            Option.map_eq_some_iff.mp taken
          obtain ⟨more, queue, led⟩ := exists_of_process processed
          refine ⟨handled ++ more, ?_, ?_⟩
          · rw [queue]
            simp [SocketEvent.arrived?]
          · rw [handleAll_append all]
            exact led

theorem ticks_of_nil (count : Nat) (server : OscServer ι σ) :
    ticks env count ⟨server, []⟩ = some ⟨server, []⟩ := by
  induction count with
  | zero => rfl
  | succ count inductionHypothesis => exact inductionHypothesis

/-- As many ticks as datagrams raise, and one more, handle all that have
arrived. -/
theorem ticks_eq_handleAll (queue : List Datagram) (server : OscServer ι σ) :
    ticks env (raisingCount env queue server + 1) ⟨server, queue⟩ =
      (handleAll env queue server).map fun after => ⟨after, []⟩ := by
  generalize counted : raisingCount env queue server = count
  induction count generalizing queue server with
  | zero =>
      rw [ticks, exec]
      cases processed : process env queue server with
      | none =>
          rw [handleAll_of_process_eq_none processed]
          rfl
      | some result =>
          obtain ⟨middle, left⟩ := result
          obtain ⟨handled, rfl, led⟩ := exists_of_process processed
          obtain rfl | more := raisingCount_of_process processed
          · rw [List.append_nil, led]
            rfl
          · omega
  | succ count inductionHypothesis =>
      rw [ticks, exec]
      cases processed : process env queue server with
      | none =>
          rw [handleAll_of_process_eq_none processed]
          rfl
      | some result =>
          obtain ⟨middle, left⟩ := result
          obtain ⟨handled, rfl, led⟩ := exists_of_process processed
          rw [handleAll_append led]
          obtain rfl | more := raisingCount_of_process processed
          · exact ticks_of_nil (count + 1) middle
          · exact inductionHypothesis left middle (by omega)

/-- Whatever came in between: the ticks that catch up lead the server to where
all datagrams that ever arrived lead it in the order of their arrival, or hang
as these do.  It takes one tick more than datagrams of the rest raise. -/
theorem ticks_of_run
    {start : OscServer ι σ}
    {steps : List (Step (OscSocket ι σ) SocketEvent)}
    (run : Run (exec env) ⟨start, []⟩ steps s) :
    ticks env (raisingCount env s.queue s.server + 1) s =
      (handleAll env (steps.filterMap fun step => step.label.arrived?)
        start).map fun after => ⟨after, []⟩ := by
  obtain ⟨past, arrived, led⟩ := exists_handled_of_run run
  rw [arrived, handleAll_append led]
  exact ticks_eq_handleAll s.queue s.server

/-- A callback that counts its calls and raises. -/
def counted : OscEnv Unit Nat where
  call _ _ s := ({ s with world := s.world + 1 }, .error .other)
  reMatch _ _ := none
  str _ _ := ⟨"Index out of range", by decide⟩
  formatExc _ _ := ⟨"", by decide⟩
  depth := 0

private def ping : Datagram := ⟨[47, 97, 0, 0, 44, 0, 0, 0], "10.0.0.2"⟩

private def counting : OscServer Unit Nat :=
  { callbacks := Dict.insert ∅ "/a" (), world := 0 }

/-- One tick takes one of two datagrams; two more call the callback again and
have sent two errors. -/
theorem ticks_of_run_counted :
    ∃ steps s last,
      replay (exec counted) ⟨counting, []⟩
        [.arrive ping, .arrive ping, .tick] = some (steps, s) ∧
      s.queue = [ping] ∧
      ticks counted (raisingCount counted s.queue s.server + 1) s =
        some ⟨last, []⟩ ∧
      last.world = 2 ∧ last.sent.length = 2 := by
  have runs : (replay (exec counted) ⟨counting, []⟩
      [.arrive ping, .arrive ping, .tick]).map (fun run =>
        decide (run.2.queue = [ping] ∧
          (handleAll counted
              (run.1.filterMap fun step => step.label.arrived?) counting).map
            (fun last => (last.world, last.sent.length)) = some (2, 2))) =
      some true := by
    decide +kernel
  obtain ⟨⟨steps, s⟩, replayed, facts⟩ := Option.map_eq_some_iff.mp runs
  obtain ⟨left, handled⟩ := of_decide_eq_true facts
  obtain ⟨last, led, both⟩ := Option.map_eq_some_iff.mp handled
  obtain ⟨world, sent⟩ := Prod.mk.inj both
  refine ⟨steps, s, last, replayed, left, ?_, world, sent⟩
  rw [ticks_of_run (run_of_replay replayed), led]
  rfl

end OscSocket

/-! ## Reloading -/

/-- What the error of a listener is for the server. -/
def ListenError.call : ListenError → CallError
  | .noListeners => .attribute
  | .notConnected | .noObject => .other

namespace OscServer

variable {ι κ τ : Type} [DecidableEq κ] [DecidableEq τ]
  (available : Listenable κ τ) (initial : Dict String ι)

/-- `clear_api` of all handlers, up to one that raises. -/
def clearAll :
    List (Listeners κ τ) → List (Listeners κ τ) × Option ListenError
  | [] => ([], none)
  | h :: handlers =>
      match h.clearListeners available with
      | (h, some raised) => (h :: handlers, some raised)
      | (h, none) =>
          let cleared := clearAll handlers
          (h :: cleared.1, cleared.2)

/-- A handler made anew; Live goes on calling what is still connected. -/
def renewed (h : Listeners κ τ) : Listeners κ τ :=
  { h with listenerFunctions := ∅, listenerObjects := ∅ }

/-- The callback for a reload: the callbacks of the server go first, and come
back once every handler is cleared. -/
def reload
    (s : OscServer ι (List (Listeners κ τ))) :
    OscServer ι (List (Listeners κ τ)) ×
      Except CallError (Option (List ArgValue)) :=
  match clearAll available s.world with
  | (handlers, some raised) =>
      ({ s with callbacks := ∅, world := handlers }, .error raised.call)
  | (handlers, none) =>
      ({ s with callbacks := initial, world := handlers.map renewed },
        .ok none)

variable {available initial}

theorem clearAll_eq_none_iff
    {handlers : List (Listeners κ τ)}
    (consistent : ∀ h ∈ handlers, h.Consistent available) :
    (clearAll available handlers).2 = none ↔
      ∀ h ∈ handlers, ∀ key ∈ h.listenerFunctions,
        available.mixer key = false := by
  induction handlers with
  | nil => simp [clearAll]
  | cons h handlers inductionHypothesis =>
      rw [List.forall_mem_cons] at consistent ⊢
      have own := Listeners.clearListeners_quiet_iff consistent.1
      rw [← own, ← inductionHypothesis consistent.2, clearAll]
      generalize h.clearListeners available = result
      obtain ⟨cleared, raised⟩ := result
      cases raised <;> simp

/-- The datagram relays an error of the log. -/
def IsError (datagram : Datagram) : Prop :=
  ∃ text msg, OscMessageBuilder.message "/live/error" [.string text] =
    .ok msg ∧ datagram.data = msg.dgram

/-- Nothing but errors was sent. -/
structure OnlyErrors {σ : Type} (s after : OscServer ι σ) : Prop where
  callbacks : after.callbacks = s.callbacks
  world : after.world = s.world
  sent : ∃ errors, after.sent = s.sent ++ errors ∧ ∀ error ∈ errors,
    IsError error

section OnlyErrors

variable {σ : Type} {env : OscEnv ι σ} {s middle after : OscServer ι σ}

theorem OnlyErrors.refl (s : OscServer ι σ) : OnlyErrors s s :=
  ⟨rfl, rfl, [], (List.append_nil _).symm, by simp⟩

theorem OnlyErrors.trans
    (first : OnlyErrors s middle)
    (second : OnlyErrors middle after) :
    OnlyErrors s after := by
  obtain ⟨same, kept, early, sent, errors⟩ := first
  obtain ⟨same', kept', late, sent', errors'⟩ := second
  refine ⟨same'.trans same, kept'.trans kept, early ++ late, ?_, ?_⟩
  · rw [sent', sent, List.append_assoc]
  · exact List.forall_mem_append.mpr ⟨errors, errors'⟩

theorem onlyErrors_logError (s : OscServer ι σ) (text : String) :
    OnlyErrors s (s.logError text).1 := by
  unfold logError
  split
  · rename_i msg built
    refine ⟨rfl, rfl, [⟨msg.dgram, s.remoteHost⟩], rfl, ?_⟩
    intro error member
    obtain rfl := List.mem_singleton.mp member
    exact ⟨text, msg, built, rfl⟩
  · exact .refl s

theorem onlyErrors_report (s : OscServer ι σ) (raised : CallError) :
    OnlyErrors s (s.report env raised) := by
  unfold report
  split
  · exact .refl s
  · exact onlyErrors_logError s _
  · exact onlyErrors_logError s _

theorem onlyErrors_unlessParse (kind : String) (result : Raising ι σ) :
    OnlyErrors result.1 (unlessParse env kind result).1 := by
  unfold unlessParse
  split
  · exact onlyErrors_logError _ _
  · exact .refl _

/-- Without callbacks a message leads to an error at most. -/
theorem onlyErrors_processMessage
    (empty : s.callbacks = ∅)
    (message : OscMessage)
    (remoteHost : String) :
    OnlyErrors s (processMessage env message remoteHost s).1 := by
  rw [processMessage, empty, Dict.get?_empty]
  dsimp only
  split
  · exact .refl s
  · exact onlyErrors_logError s _

mutual

theorem onlyErrors_processContent
    (remoteHost : String) :
    ∀ content (s : OscServer ι σ), s.callbacks = ∅ →
      OnlyErrors s (processContent env remoteHost content s).1
  | .message m, s, empty => by
      rw [processContent]
      exact onlyErrors_processMessage empty m remoteHost
  | .bundle _ _ contents, s, empty => by
      rw [processContent]
      exact onlyErrors_processContents remoteHost contents s empty

theorem onlyErrors_processContents
    (remoteHost : String) :
    ∀ contents (s : OscServer ι σ), s.callbacks = ∅ →
      OnlyErrors s (processContents env remoteHost contents s).1
  | [], s, _ => by
      rw [processContents]
      exact .refl s
  | content :: contents, s, empty => by
      have first := onlyErrors_processContent remoteHost content s empty
      rw [processContents]
      split
      · rename_i middle raised processed
        rwa [processed] at first
      · rename_i middle processed
        rw [processed] at first
        exact first.trans (onlyErrors_processContents remoteHost contents
          middle (first.callbacks.trans empty))

end

/-- Without callbacks a datagram leads to errors at most. -/
theorem onlyErrors_handle
    {result : Raising ι σ} {datagram : Datagram}
    (empty : s.callbacks = ∅)
    (handled : handle env datagram s = some result) :
    OnlyErrors s result.1 := by
  have heard : OnlyErrors s { s with remoteHost := datagram.host } :=
    ⟨rfl, rfl, [], (List.append_nil _).symm, by simp⟩
  refine heard.trans ?_
  have empty' := heard.callbacks.trans empty
  rw [handle] at handled
  generalize { s with remoteHost := datagram.host } = s' at handled empty' ⊢
  rw [parseBundle] at handled
  split at handled
  · obtain ⟨parsed, -, rfl⟩ := Option.map_eq_some_iff.mp handled
    cases parsed with
    | error failure => exact onlyErrors_unlessParse _ (s', _)
    | ok bundle =>
        exact (onlyErrors_processContent _ bundle s' empty').trans
          (onlyErrors_unlessParse _ _)
  · split at handled
    · obtain rfl := Option.some.inj handled
      exact onlyErrors_unlessParse _ (s', _)
    · obtain rfl := Option.some.inj handled
      exact (onlyErrors_processMessage empty' _ _).trans
        (onlyErrors_unlessParse _ _)

/-- Nor does any number of datagrams lead to more. -/
theorem onlyErrors_handleAll
    {datagrams : List Datagram}
    (empty : s.callbacks = ∅)
    (handled : handleAll env datagrams s = some after) :
    OnlyErrors s after := by
  induction datagrams generalizing s with
  | nil =>
      obtain rfl := Option.some.inj handled
      exact .refl s
  | cons datagram queue inductionHypothesis =>
      rw [handleAll] at handled
      split at handled
      · cases handled
      · rename_i middle handles
        have first := onlyErrors_handle empty handles
        exact first.trans
          (inductionHypothesis (first.callbacks.trans empty) handled)
      · rename_i middle raised handles
        have first : OnlyErrors s (middle.report env raised) :=
          (onlyErrors_handle empty handles).trans
            (onlyErrors_report middle raised)
        exact first.trans
          (inductionHypothesis (first.callbacks.trans empty) handled)

end OnlyErrors

private def silent : OscEnv Unit (List (Listeners Nat Nat)) where
  call _ _ s := (s, .ok none)
  reMatch _ _ := some true
  str _ _ := ⟨"", by decide⟩
  formatExc _ _ := ⟨"", by decide⟩
  depth := 0

end OscServer
end AbletonTracks
