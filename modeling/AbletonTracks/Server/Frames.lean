import AbletonTracks.Server.Driving
import AbletonTracks.Server.FullState

/-!
# Text frames from the devices

`websocket_endpoint` reads the fields of a frame without looking at their
types, and catches a syntax error only.  Most ill-typed fields do no harm: a
text is made of whatever comes, and `_handle_jump` catches what its indices
raise.  A frame that is no object, and a track index that compares with no
number or that cannot be packed, end the handler of the device that sent
them.
-/

namespace AbletonTracks

open Library

/-! ## Decoding a frame -/

/-- What `json.loads` makes of a frame. -/
inductive TextFrame
  /-- It raises a `JSONDecodeError`. -/
  | malformed
  /-- It raises something else: the frame is nested too deeply, or has an
  integer of too many digits. -/
  | refused
  | value (json : Json)

namespace TextFrame

/-- The fields of a frame that is an object. -/
def fields? : TextFrame → Option (List (String × Json))
  | .value (.object fields) => some fields
  | _ => none

end TextFrame

mutual

/-- `send_message` can pack the value; it refuses an object. -/
def packsJson : Json → Bool
  | .null => true
  | .number value => packs value
  | .string _ => true
  | .array items => packsItems items
  | .object _ => false

/-- `send_message` can pack every item of an array. -/
def packsItems : List Json → Bool
  | [] => true
  | item :: rest => packsJson item && packsItems rest

end

namespace ClientMessage

/-- `msg.get(key, default)`. -/
def get (fields : List (String × Json)) (key : String) (default : Json) :
    Json :=
  (Json.field? fields key).getD default

/-- The integer by which a field indexes a list, unless that raises. -/
def index? (fields : List (String × Json)) (key : String) : Option Int :=
  (get fields key (.number (.int (-1)))).number?.bind Number.index?

/-- `msg.get("track_index", -1)`, unless it compares with no number. -/
def trackIndex? (fields : List (String × Json)) : Option Number :=
  (get fields "track_index" (.number (.int (-1)))).number?

/-- What an object means.  `repr` is `str` of a value that is no string, and
`freshId` the id that `uuid4` would return. -/
def ofObject (repr : Json → String) (freshId : String)
    (fields : List (String × Json)) : ClientMessage :=
  match get fields "type" .null with
  | .string "refresh" => .refresh
  | .string "register" =>
      .register ((get fields "name" (.string "")).text repr)
  | .string "request_control" => .requestControl freshId
  | .string "cancel_control_request" => .cancelControlRequest
  | .string "jump" =>
      .jump (index? fields "song_index") (index? fields "section_index")
  | .string "mute_track" =>
      .muteTrack (trackIndex? fields)
        (get fields "muted" (.number (.bool false))).truth
  | .string "transport" =>
      match get fields "action" .null with
      | .string "play" => .play
      | .string "stop" => .stop
      | _ => .otherTransport
  | .string "release_control" => .releaseControl
  | .string "respond_control" =>
      .respondControl ((get fields "request_id" (.string "")).text repr)
        (get fields "accept" (.number (.bool false))).truth
  | .string "grant_control" =>
      .grantControl ((get fields "connection_id" (.string "")).text repr)
  | .string "generate_cues" =>
      -- A name that cannot be packed raises in the task, not in the handler;
      -- of any other, Ableton takes the text.
      let trackName := get fields "track_name" (.string "Cues")
      if packsJson trackName then .generateCues (trackName.text repr)
      else .unknown
  | .string "analyze_guide" => .analyzeGuide
  | _ => .unknown

/-- What a frame means.  Whatever `json.loads` raises besides a syntax error
is caught no more than a missing `get`. -/
def ofFrame (repr : Json → String) (freshId : String) :
    TextFrame → ClientMessage
  | .malformed => .badJson
  | .refused => .notAnObject
  | .value (.object fields) => ofObject repr freshId fields
  | .value _ => .notAnObject

/-- The message raises in the handler of a device. -/
def Raises (isPrimary : Bool) : ClientMessage → Prop
  | .notAnObject => True
  | .muteTrack none _ => isPrimary = true
  | .muteTrack (some index) _ =>
      isPrimary = true ∧ index.nonneg = true ∧ packs index = false
  | _ => False

end ClientMessage

namespace TextFrame

/-- The frame gives control back, if its device has it. -/
def Releases (frame : TextFrame) : Prop :=
  ∃ fields, frame.fields? = some fields ∧
    ClientMessage.get fields "type" .null = .string "release_control"

/-- The frame is no JSON object although it is JSON, or the primary mutes a
track by an index that compares with no number or cannot be packed. -/
def KnocksOff (isPrimary : Bool) : TextFrame → Prop
  | .malformed => False
  | .value (.object fields) =>
      isPrimary = true ∧
        ClientMessage.get fields "type" .null = .string "mute_track" ∧
        ∀ index ∈ ClientMessage.trackIndex? fields,
          index.nonneg = true ∧ packs index = false
  | _ => True

theorem Releases.not_knocksOff
    {frame : TextFrame}
    (releases : frame.Releases)
    (isPrimary : Bool) :
    ¬frame.KnocksOff isPrimary := by
  obtain ⟨fields, own, kind⟩ := releases
  cases frame with
  | malformed | refused => cases own
  | value json =>
      cases json with
      | object =>
          obtain rfl := Option.some.inj own
          rintro ⟨_, mutes, _⟩
          rw [kind] at mutes
          simp at mutes
      | _ => cases own

variable {repr : Json → String} {freshId : String} {isPrimary : Bool}

theorem raises_ofObject_iff {fields : List (String × Json)} :
    (ClientMessage.ofObject repr freshId fields).Raises isPrimary ↔
      KnocksOff isPrimary (.value (.object fields)) := by
  by_cases mutes : ClientMessage.get fields "type" .null =
      .string "mute_track"
  · simp only [ClientMessage.ofObject, KnocksOff, mutes, true_and]
    cases ClientMessage.trackIndex? fields with
    | none => simp [ClientMessage.Raises]
    | some index => simp [ClientMessage.Raises]
  · refine iff_of_false ?_ fun knocks => mutes knocks.2.1
    intro raises
    simp only [ClientMessage.ofObject] at raises
    repeat' split at raises
    all_goals first | exact raises | exact mutes ‹_›

/-- A frame knocks its device off when its message raises. -/
theorem raises_ofFrame_iff (frame : TextFrame) :
    (ClientMessage.ofFrame repr freshId frame).Raises isPrimary ↔
      frame.KnocksOff isPrimary := by
  cases frame with
  | malformed | refused => exact Iff.rfl
  | value json =>
      cases json with
      | object fields => exact raises_ofObject_iff
      | _ => exact Iff.rfl

/-- A frame gives control back when its message does. -/
theorem releases_of_eq_releaseControl
    {frame : TextFrame}
    (same : ClientMessage.ofFrame repr freshId frame = .releaseControl) :
    frame.Releases := by
  cases frame with
  | malformed | refused => cases same
  | value json =>
      cases json with
      | object fields =>
          refine ⟨fields, rfl, ?_⟩
          simp only [ClientMessage.ofFrame, ClientMessage.ofObject] at same
          repeat' split at same
          all_goals first | assumption | cases same
      | _ => cases same

end TextFrame

/-! ## Staying in the loop -/

/-- The handler is still in its loop over the frames. -/
def Phase.InLoop : Phase → Prop
  | .receiving => True
  | .ready _ next => next = .receive ∨ ∃ jump, next = .land jump
  | .sending _ _ _ next => next = .receive ∨ ∃ jump, next = .land jump
  | .done => False

theorem Phase.inLoop_of_next?
    {phase : Phase} {next : Next}
    (goesOn : phase.next? = some next) :
    phase.InLoop ↔ next = .receive ∨ ∃ jump, next = .land jump := by
  cases phase with
  | ready | sending =>
      obtain rfl := Option.some.inj goesOn
      exact Iff.rfl
  | receiving | done => cases goesOn

namespace System

variable {s after : System} {event : Event} {ws : WebSocket}
  {steps : List (Step System Event)}

/-- The handler of a socket is still in its loop over the frames. -/
def InLoop (s : System) (ws : WebSocket) : Prop :=
  ∃ phase, s.phase? (.handler ws) = some phase ∧ phase.InLoop

/-- The socket is found disconnected, or sends another frame. -/
def Interrupts (ws : WebSocket) (step : Step System Event) : Prop :=
  step.label = .hangUp ws ∨
    (∃ message, step.label = .receive ws message) ∨
    step.label = .resume (.handler ws) true ∧
      ∃ phase, step.before.phase? (.handler ws) = some phase ∧
        phase.Unwinds true

/-- Unless the socket disconnects, its handler stays in the loop, and its own
next sends bring it to the next frame. -/
def ReadsOn (s : System) (ws : WebSocket) : Prop :=
  ∀ steps later, Run exec s steps later →
    (∀ step ∈ steps, ¬Interrupts ws step) →
    later.InLoop ws ∧
      ∃ count last,
        execAll exec later (resumes (.handler ws) count) = some last ∧
        last.phase? (.handler ws) = some .receiving

/-- A handler that runs on in its loop stays there. -/
theorem inLoop_run
    {todo : List Todo} {next : Next}
    (safe : ∀ raised, s.manager.nextSend s.ableton.state todo ≠
      .error raised)
    (loops : next = .receive ∨ ∃ jump, next = .land jump) :
    (s.run (.handler ws) todo next).InLoop ws := by
  unfold run
  cases found : s.manager.nextSend s.ableton.state todo with
  | error raised => exact absurd found (safe raised)
  | ok sending? =>
      cases sending? with
      | none =>
          refine ⟨.receiving, ?_, trivial⟩
          rcases loops with rfl | ⟨jump, rfl⟩
          · exact s.phase?_enter_self _ _
          · exact (s.land ws jump).phase?_enter_self _ _
      | some sending => exact ⟨_, s.phase?_enter_self _ _, loops⟩

/-- A handler that performs what its device asks for stays in its loop. -/
theorem inLoop_operate
    {op : Op}
    (fits : s.Fits)
    (stands : s.phase? (.handler ws) = some .receiving)
    (asked : op.AskedBy ws) :
    (s.operate (.handler ws) op .receive).InLoop ws := by
  have performs : s.Performs (.handler ws) op .receive := .heard stands asked
  obtain ⟨m, todo, applied⟩ :=
    ConnectionManager.apply_isOk fits.roles (performs.enabled fits)
  simp only [operate, applied]
  refine inLoop_run (s := { s with manager := m }) ?_ (Or.inl rfl)
  exact (fits.operates performs applied).nextSend_ne_error
    (phase?_enter_self _ _)

/-- Commands leave a handler waiting for its next frame. -/
theorem inLoop_performAll
    (stands : s.phase? (.handler ws) = some .receiving)
    (effects : List Effect) :
    (s.performAll (some ws) effects).InLoop ws := by
  obtain ⟨_, _, _, handlers⟩ := s.performAll_eq (some ws) effects
  exact ⟨.receiving, (handlers ws).trans stands, trivial⟩

/-- The `finally` is no part of the loop. -/
theorem not_inLoop_unwind (s : System) (ws : WebSocket) :
    ¬(s.unwind (.handler ws)).InLoop ws := by
  rintro ⟨phase, stands, loops⟩
  simp only [unwind] at stands
  split at stands
  · obtain rfl := Option.some.inj ((s.phase?_enter_self _ _).symm.trans stands)
    exact loops
  · rename_i m todo _
    simp only [runLast] at stands
    split at stands
    · obtain rfl := Option.some.inj
        ((phase?_enter_self (s := { s with manager := m }) _ _).symm.trans
          stands)
      exact loops
    · obtain rfl := Option.some.inj
        ((phase?_enter_self (s := { s with manager := m }) _ _).symm.trans
          stands)
      exact loops
    · obtain rfl := Option.some.inj
        ((phase?_enter_self (s := { s with manager := m }) _ _).symm.trans
          stands)
      rcases loops with impossible | ⟨jump, impossible⟩
      · cases impossible
      · cases impossible

/-- Unless the socket disconnects, no step takes its handler out of the
loop. -/
theorem InLoop.exec
    (loops : s.InLoop ws)
    (fits : s.Fits)
    (taken : s.exec event = some after)
    (goesOn : ¬Interrupts ws ⟨s, event, after⟩) :
    after.InLoop ws := by
  obtain ⟨phase, stands, inLoop⟩ := loops
  by_cases acts : s.actor event = some (.handler ws)
  · cases event with
    | accept other params connectionId =>
        obtain ⟨⟩ := Option.some.inj acts
        simp [System.exec, stands] at taken
    | receive other message =>
        obtain ⟨⟩ := Option.some.inj acts
        exact absurd (Or.inr (Or.inl ⟨message, rfl⟩)) goesOn
    | hangUp other =>
        obtain ⟨⟩ := Option.some.inj acts
        exact absurd (Or.inl rfl) goesOn
    | resume c raised =>
        obtain rfl := Option.some.inj acts
        have caught : ¬phase.Unwinds raised := by
          intro unwinds
          cases raised with
          | true => exact goesOn (Or.inr (Or.inr ⟨rfl, phase, stands, unwinds⟩))
          | false => cases phase <;> simp [Phase.Unwinds] at unwinds
        obtain ⟨next, goes, rfl⟩ := eq_run_of_resume taken stands caught
        exact inLoop_run (fits.nextSend_ne_error stands)
          ((Phase.inLoop_of_next? goes).mp inLoop)
    | fire timer => cases acts
    | peerGone | wait | ableton => cases acts
  · exact ⟨phase, (untouched_of_exec fits stands acts taken).phase.trans stands,
      inLoop⟩

/-! ## Reaching the next frame -/

/-- An upper bound for the sends that an entry still makes. -/
def sendsLeft (m : ConnectionManager) : Todo → Nat
  | .broadcastHandoff => (m.clients.keys.filter m.supportsHandoff).length
  | .broadcastRoster | .broadcast _ | .broadcastFullState => m.targets.length
  | _ => 1

/-- An upper bound for the sends of a to-do list. -/
def allSendsLeft (m : ConnectionManager) (todo : List Todo) : Nat :=
  (todo.map (sendsLeft m)).sum

theorem allSendsLeft_append
    (m : ConnectionManager)
    (early late : List Todo) :
    allSendsLeft m (early ++ late) =
      allSendsLeft m early + allSendsLeft m late := by
  simp [allSendsLeft]

/-- Entries that make one send each. -/
theorem allSendsLeft_map
    {m : ConnectionManager} {entry : WebSocket → Todo}
    (single : ∀ ws, sendsLeft m (entry ws) = 1)
    (sockets : List WebSocket) :
    allSendsLeft m (sockets.map entry) = sockets.length := by
  induction sockets with
  | nil => rfl
  | cons ws rest inductionHypothesis =>
      simp only [allSendsLeft, List.map_cons, List.sum_cons, single,
        List.length_cons] at inductionHypothesis ⊢
      omega

/-- The first send of an entry leaves one send less. -/
theorem allSendsLeft_firstSend
    {m : ConnectionManager} {app : AppState} {entry : Todo}
    {sending : Sending}
    (sends : m.FirstSend app entry sending) :
    allSendsLeft m sending.rest + 1 = sendsLeft m entry := by
  have deliveries : ∀ message sockets, allSendsLeft m
      (List.map (fun other => Todo.deliver other message) sockets) =
        sockets.length :=
    fun message => allSendsLeft_map fun _ => rfl
  cases sends with
  | broadcastFullState recipients =>
      rw [allSendsLeft_map fun _ => rfl]
      simp [sendsLeft, recipients]
  | broadcastHandoff recipients | broadcastRoster recipients
  | broadcast recipients => simp [deliveries, sendsLeft, recipients]
  | _ => rfl

/-- Every send of a to-do list leaves fewer of them. -/
theorem allSendsLeft_nextSend
    {m : ConnectionManager} {app : AppState} {todo : List Todo}
    {sending : Sending}
    (found : m.nextSend app todo = .ok (some sending)) :
    allSendsLeft m sending.rest < allSendsLeft m todo := by
  obtain ⟨skipped, entry, later, first, rfl, _, sends, rfl⟩ :=
    ConnectionManager.nextSend_eq_some found
  have fewer := allSendsLeft_firstSend sends
  simp only [allSendsLeft_append]
  simp only [allSendsLeft, List.map_cons, List.sum_cons] at fewer ⊢
  omega

/-- A handler in its loop comes to wait for the next frame. -/
theorem InLoop.reachesReceiving
    (loops : s.InLoop ws)
    (fits : s.Fits) :
    ∃ count last,
      execAll System.exec s (resumes (.handler ws) count) = some last ∧
      last.phase? (.handler ws) = some .receiving := by
  obtain ⟨phase, stands, inLoop⟩ := loops
  -- Induction on the sends that the handler has left.
  induction left : allSendsLeft s.manager phase.todo
    using Nat.strong_induction_on generalizing s phase with
  | _ left inductionHypothesis =>
  cases waits : phase.next? with
  | none =>
      cases phase with
      | receiving => exact ⟨0, s, rfl, stands⟩
      | done => exact inLoop.elim
      | ready | sending => cases waits
  | some next =>
      have loops := (Phase.inLoop_of_next? waits).mp inLoop
      have taken : s.exec (.resume (.handler ws) false) =
          some (s.run (.handler ws) phase.todo next) := by
        cases phase with
        | ready | sending =>
            obtain rfl := Option.some.inj waits
            simp [System.exec, resume, stands, Phase.todo]
        | receiving | done => cases waits
      have nextFits := fits.exec taken
      suffices reaches : ∃ count last,
          execAll System.exec (s.run (.handler ws) phase.todo next)
            (resumes (.handler ws) count) = some last ∧
          last.phase? (.handler ws) = some .receiving by
        obtain ⟨count, last, executed, receives⟩ := reaches
        refine ⟨count + 1, last, ?_, receives⟩
        rw [resumes, List.replicate_succ, execAll_cons taken]
        exact executed
      cases found : s.manager.nextSend s.ableton.state phase.todo with
      | error raised =>
          exact absurd found (fits.nextSend_ne_error stands raised)
      | ok sending? =>
          cases sending? with
          | none =>
              refine ⟨0, _, rfl, ?_⟩
              simp only [run, found]
              rcases loops with rfl | ⟨jump, rfl⟩
              · exact s.phase?_enter_self _ _
              · exact (s.land ws jump).phase?_enter_self _ _
          | some sending =>
              rw [run_eq_suspend found] at nextFits ⊢
              refine inductionHypothesis _ ?_ nextFits _
                (s.phase?_enter_self _ _) loops rfl
              exact left ▸ allSendsLeft_nextSend found

/-- A handler in its loop reads on. -/
theorem InLoop.readsOn
    (loops : s.InLoop ws)
    (reachable : Reachable System.exec {} s) :
    s.ReadsOn ws := by
  intro steps later run uninterrupted
  have both : later.InLoop ws ∧ later.Fits := by
    refine run.conditionalInvariant
      (fun current => current.InLoop ws ∧ current.Fits)
      (fun current event => ∀ next, ¬Interrupts ws ⟨current, event, next⟩)
      ⟨loops, fits_of_reachable reachable⟩ ?_ ?_
    · rintro current event next _ ⟨inLoop, fits⟩ goesOn taken
      exact ⟨inLoop.exec fits taken (goesOn next), fits.exec taken⟩
    · intro step member next
      exact uninterrupted step member
  exact ⟨both.1, both.1.reachesReceiving both.2⟩

/-! ## Handling one frame -/

/-- An accepted jump leaves its handler in the loop. -/
theorem inLoop_handleJump
    (fits : s.Fits)
    (stands : s.phase? (.handler ws) = some .receiving)
    (songIndex sectionIndex : Option Int) :
    (s.handleJump ws songIndex sectionIndex).InLoop ws := by
  cases songIndex with
  | none => exact ⟨.receiving, stands, trivial⟩
  | some songIndex =>
  cases sectionIndex with
  | none => exact ⟨.receiving, stands, trivial⟩
  | some sectionIndex =>
  cases found : sectionAt? s.ableton.state songIndex sectionIndex with
  | none =>
      simp only [handleJump, found]
      exact ⟨.receiving, stands, trivial⟩
  | some target =>
      obtain ⟨_, _, begun, _⟩ := handleJump_begins fits stands found rfl
      obtain ⟨phase, own, pending⟩ := Option.bind_eq_some_iff.mp begun
      have lands := Phase.next?_of_landing? pending
      exact ⟨phase, own, (Phase.inLoop_of_next? lands).mpr (Or.inr ⟨_, rfl⟩)⟩

/-- What the primary asks for leaves its handler in the loop, unless it raises
or gives control back. -/
theorem inLoop_obey_iff
    {message : ClientMessage}
    (fits : s.Fits)
    (stands : s.phase? (.handler ws) = some .receiving)
    (keeps : message ≠ .releaseControl)
    (isObject : message ≠ .notAnObject) :
    (s.obey ws message).InLoop ws ↔ ¬message.Raises true := by
  have waits : s.InLoop ws := ⟨.receiving, stands, trivial⟩
  cases message with
  | jump songIndex sectionIndex =>
      exact iff_of_true (inLoop_handleJump fits stands _ _) id
  | muteTrack trackIndex muted =>
      cases trackIndex with
      | none =>
          exact iff_of_false (s.not_inLoop_unwind ws) fun safe => safe rfl
      | some index =>
          simp only [obey, ClientMessage.Raises, true_and]
          split
          · rename_i negative
            exact iff_of_true waits fun raises => negative raises.1
          · rename_i nonneg
            split
            · rename_i packed
              refine iff_of_true (inLoop_performAll stands _) fun raises => ?_
              rw [packed] at raises
              cases raises.2
            · rename_i tooLarge
              refine iff_of_false (s.not_inLoop_unwind ws) fun safe => safe ?_
              exact ⟨by simpa using nonneg, by simpa using tooLarge⟩
  | play | generateCues =>
      exact iff_of_true (inLoop_performAll stands _) id
  | stop => exact iff_of_true (inLoop_performAll stands _) id
  | releaseControl => exact absurd rfl keeps
  | notAnObject => exact absurd rfl isObject
  | respondControl | grantControl =>
      exact iff_of_true (inLoop_operate fits stands rfl) id
  | _ => exact iff_of_true waits id

/-- A message leaves its handler in the loop, unless it raises or the primary
gives control back. -/
theorem inLoop_hear_iff
    {message : ClientMessage}
    (fits : s.Fits)
    (stands : s.phase? (.handler ws) = some .receiving)
    (keeps : ¬(message = .releaseControl ∧ s.manager.isPrimary ws = true)) :
    (s.hear ws message).InLoop ws ↔
      ¬message.Raises (s.manager.isPrimary ws) := by
  have waits : s.InLoop ws := ⟨.receiving, stands, trivial⟩
  have obeyed : message ≠ .notAnObject →
      ((if s.manager.isPrimary ws then s.obey ws message else s).InLoop ws ↔
        ¬message.Raises (s.manager.isPrimary ws)) := by
    intro isObject
    split
    · rename_i primary
      rw [primary]
      exact inLoop_obey_iff fits stands (fun same => keeps ⟨same, primary⟩)
        isObject
    · rename_i observer
      refine iff_of_true waits ?_
      cases message with
      | muteTrack trackIndex muted =>
          cases trackIndex with
          | none => exact observer
          | some index => exact fun raises => observer raises.1
      | notAnObject => exact absurd rfl isObject
      | _ => exact id
  cases message with
  | badJson => exact iff_of_true waits id
  | notAnObject =>
      exact iff_of_false (s.not_inLoop_unwind ws) fun safe => safe trivial
  | refresh =>
      refine iff_of_true ?_ id
      obtain ⟨commands, same⟩ := s.performAll_refresh (some ws)
      simp only [hear, same]
      have asked : ({ s with commands := commands } : System).Fits :=
        fits.congr rfl rfl (Nat.le_refl _)
      have begun := asked.continuation (.begins rfl stands .refresh)
      exact inLoop_run (s := { s with commands := commands })
        (begun.nextSend_ne_error (phase?_enter_self _ _)) (Or.inl rfl)
  | register | requestControl | cancelControlRequest =>
      exact iff_of_true (inLoop_operate fits stands rfl) id
  | _ => exact obeyed (by simp)

/-- In every reachable state, a frame that a device sends leaves its handler
reading on, and without an object the state as it is, exactly when it does
not knock the device off; the primary may give control back. -/
theorem readsOn_iff_not_knocksOff
    (reachable : Reachable System.exec {} s)
    (repr : Json → String)
    (freshId : String)
    (frame : TextFrame)
    (taken : s.exec (.receive ws (.ofFrame repr freshId frame)) =
      some after) :
    (frame.Releases ∧ s.manager.primary = some ws) ∨
      (after.ReadsOn ws ∧
        (frame.fields? = none →
          after.manager = s.manager ∧
            after.ableton.state = s.ableton.state)) ↔
    ¬frame.KnocksOff (s.manager.isPrimary ws) := by
  have fits := fits_of_reachable reachable
  have later := reachable.step taken
  obtain ⟨stands, rfl⟩ := hear_of_receive taken
  by_cases gives : frame.Releases ∧ s.manager.primary = some ws
  · refine iff_of_true (Or.inl gives) ?_
    exact gives.1.not_knocksOff _
  · have keeps : ¬(ClientMessage.ofFrame repr freshId frame =
        .releaseControl ∧ s.manager.isPrimary ws = true) := by
      rintro ⟨same, primary⟩
      exact gives ⟨TextFrame.releases_of_eq_releaseControl same,
        by simpa [ConnectionManager.isPrimary] using primary⟩
    have loops := inLoop_hear_iff fits stands keeps
    rw [TextFrame.raises_ofFrame_iff] at loops
    constructor
    · rintro (given | ⟨reads, _⟩)
      · exact absurd given gives
      · exact loops.mp (reads [] _ Run.nil (by simp)).1
    · intro safe
      refine Or.inr ⟨(loops.mpr safe).readsOn later, fun noObject => ?_⟩
      cases frame with
      | malformed => exact ⟨rfl, rfl⟩
      | refused => exact absurd trivial safe
      | value json =>
          cases json with
          | object fields => cases noObject
          | _ => exact absurd trivial safe

/-- A jump with fields of wrong types. -/
private def illTyped : TextFrame :=
  .value (.object [("type", .string "jump"),
    ("song_index", .array [.null]), ("section_index", .number (.bool true))])

/-- A tablet sends a jump with an array for an index. -/
theorem readsOn_iff_not_knocksOff_arrayIndex :
    ∃ steps s after, replay exec {} ([.accept ⟨0⟩ stageTablet "c0"] ++
        resumes (.handler ⟨0⟩) 3) = some (steps, s) ∧
      s.manager.primary = some ⟨0⟩ ∧
      s.exec (.receive ⟨0⟩ (.ofFrame (fun _ => "") "r0" illTyped)) =
        some after ∧
      after.ReadsOn ⟨0⟩ := by
  have runs : (replay exec {} ([.accept ⟨0⟩ stageTablet "c0"] ++
      resumes (.handler ⟨0⟩) 3)).map (fun result => decide (
        result.2.manager.primary = some ⟨0⟩ ∧
        result.2.phase? (.handler ⟨0⟩) = some .receiving)) = some true := by
    decide +kernel
  obtain ⟨⟨steps, s⟩, replayed, facts⟩ := Option.map_eq_some_iff.mp runs
  obtain ⟨primary, stands⟩ := of_decide_eq_true facts
  have taken : s.exec (.receive ⟨0⟩ (.ofFrame (fun _ => "") "r0" illTyped)) =
      some (s.hear ⟨0⟩ (.ofFrame (fun _ => "") "r0" illTyped)) := if_pos stands
  refine ⟨steps, s, _, replayed, primary, taken, ?_⟩
  have safe : ¬illTyped.KnocksOff (s.manager.isPrimary ⟨0⟩) := by
    rintro ⟨_, mutes, _⟩
    simp [ClientMessage.get, Json.field?] at mutes
  rcases (readsOn_iff_not_knocksOff (run_of_replay replayed).reachable
    (fun _ => "") "r0" illTyped taken).mpr safe with ⟨⟨fields, own, kind⟩, _⟩ |
      ⟨reads, _⟩
  · cases own
    simp [ClientMessage.get, Json.field?] at kind
  · exact reads

/-- A tablet in control sends the JSON text `[]`: its handler leaves the loop,
and nobody is in control any more. -/
theorem not_readsOn_of_emptyArray :
    ∃ steps s after, replay exec {} ([.accept ⟨0⟩ stageTablet "c0"] ++
        resumes (.handler ⟨0⟩) 3) = some (steps, s) ∧
      s.manager.primary = some ⟨0⟩ ∧
      s.exec (.receive ⟨0⟩ (.ofFrame (fun _ => "") "r0"
        (.value (.array [])))) = some after ∧
      ¬(TextFrame.value (.array [])).Releases ∧
      after.manager.primary = none ∧ ¬after.ReadsOn ⟨0⟩ := by
  have runs : (replay exec {} ([.accept ⟨0⟩ stageTablet "c0"] ++
      resumes (.handler ⟨0⟩) 3)).map (fun result => decide (
        result.2.manager.primary = some ⟨0⟩ ∧
        result.2.phase? (.handler ⟨0⟩) = some .receiving ∧
        (result.2.unwind (.handler ⟨0⟩)).manager.primary = none)) =
      some true := by
    decide +kernel
  obtain ⟨⟨steps, s⟩, replayed, facts⟩ := Option.map_eq_some_iff.mp runs
  obtain ⟨primary, stands, lost⟩ := of_decide_eq_true facts
  refine ⟨steps, s, s.unwind (.handler ⟨0⟩), replayed, primary,
    if_pos stands, ?_, lost, fun reads => ?_⟩
  · rintro ⟨_, impossible, _⟩
    cases impossible
  · exact s.not_inLoop_unwind ⟨0⟩ (reads [] _ Run.nil (by simp)).1

end System
end AbletonTracks
