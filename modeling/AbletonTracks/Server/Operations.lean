import AbletonTracks.Server.Steps

/-!
# One operation at a time

An event performs at most one operation of the manager, and `operation?` says
which before it does.  Its coroutine then goes on to the first send of the
operation's to-do list; whatever else is sent comes from to-do lists that were
there before, and these hold no result of a request any more: a result is the
first thing that an operation sends.
-/

namespace AbletonTracks

open Library

/-! ## Results of requests -/

/-- A result that names a request. -/
def Message.IsResult : Message → Prop
  | .controlRequestResult (some _) _ _ => True
  | _ => False

/-- An entry that sends such a result. -/
def Todo.SendsResult : Todo → Prop
  | .sendResult _ (some _) _ _ => True
  | .broadcast message | .deliver _ message => message.IsResult
  | _ => False

/-- Only the primary is listened to when it sends the message. -/
def ClientMessage.IsCommand : ClientMessage → Prop
  | .badJson | .notAnObject | .refresh | .register _ | .requestControl _
  | .cancelControlRequest => False
  | _ => True

/-- No result is still to be sent. -/
def Phase.Mute (phase : Phase) : Prop :=
  ∀ entry ∈ phase.todo, ¬entry.SendsResult

namespace ConnectionManager

variable {m after : ConnectionManager} {app : AppState} {op : Op}
  {todo : List Todo} {entry : Todo} {sending : Sending}

/-- An entry without a result sends none, and leaves none. -/
theorem FirstSend.mute
    (sends : m.FirstSend app entry sending)
    (silent : ¬entry.SendsResult) :
    ¬sending.frame.message.IsResult ∧
      ∀ left ∈ sending.rest, ¬left.SendsResult := by
  constructor
  · cases sends with
    | push built | sendState built | sendSnapshot built
    | broadcastFullState _ built =>
        obtain ⟨client, _, rfl⟩ := snapshotFor_eq_ok built
        exact id
    | broadcast | deliver => exact silent
    | @sendResult ws requestId result reason =>
        cases requestId with
        | none => exact id
        | some requestId => exact absurd trivial silent
    | broadcastHandoff | broadcastRoster | sendHandoff | sendReleased =>
        exact id
  · intro left member
    rcases sends.mem_rest member with ⟨ws, rfl, _⟩ | ⟨ws, rfl, _⟩ |
      ⟨ws, message, rfl, rfl⟩ | ⟨ws, rfl, _⟩
    · exact id
    · exact id
    · exact silent
    · exact id

theorem mute_of_nextSend
    (found : m.nextSend app todo = .ok (some sending))
    (silent : ∀ entry ∈ todo, ¬entry.SendsResult) :
    ¬sending.frame.message.IsResult ∧
      ∀ left ∈ sending.rest, ¬left.SendsResult := by
  obtain ⟨skipped, entry, later, first, rfl, _, sends, rfl⟩ :=
    nextSend_eq_some found
  obtain ⟨frame, rest⟩ := sends.mute (silent entry (by simp))
  refine ⟨frame, fun left member => ?_⟩
  rcases List.mem_append.mp member with own | after
  · exact rest left own
  · exact silent left (by simp [after])

/-- Announcing role changes, behind one entry at most, adds no result. -/
theorem mute_announce
    (front : List Todo)
    (changes : Changes)
    (short : front.length ≤ 1) :
    ∀ entry ∈ (front ++ announce changes).tail, ¬entry.SendsResult := by
  have announced : ∀ entry ∈ announce changes, ¬entry.SendsResult := by
    intro entry member
    simp only [announce, List.mem_append, List.mem_map, List.mem_cons,
      List.not_mem_nil, or_false] at member
    rcases member with ⟨change, _, rfl⟩ | rfl | rfl <;> exact id
  intro entry member
  refine announced entry ?_
  cases front with
  | nil => exact List.mem_of_mem_tail member
  | cons head others =>
      obtain rfl := List.eq_nil_of_length_eq_zero
        (Nat.le_zero.mp (Nat.le_of_succ_le_succ short))
      exact member

/-- Only the first entry of an operation may be a result. -/
theorem Transition.mute_tail
    (branch : m.Transition op after todo) :
    ∀ entry ∈ todo.tail, ¬entry.SendsResult := by
  have handoff : ∀ entry ∈ [Todo.broadcastHandoff], ¬entry.SendsResult := by
    intro entry member
    obtain rfl := List.mem_singleton.mp member
    exact id
  cases branch with
  | reclaims | supersedes | takesSlot | observes =>
      exact mute_announce [.sendState _] _ (Nat.le_refl _)
  | absent | leaves | handsBack | reserves | empties | requestTakesSlot
  | accepts | slotGranted =>
      rw [← List.nil_append (announce _)]
      exact mute_announce [] _ (Nat.zero_le _)
  | withdraws | denies | requestExpires => exact handoff
  | grants =>
      refine mute_announce _ _ ?_
      rw [passedOver, List.length_map]
      refine (List.length_filter_le _ _).trans ?_
      cases m.request <;> simp
  | releases | releasesTo =>
      refine mute_announce _ _ ?_
      rw [List.length_map]
      cases m.primary <;> simp
  | _ => simp

/-- What an operation leaves for after its first send has no result. -/
theorem Transition.mute_rest
    (branch : m.Transition op after todo)
    (found : after.nextSend app todo = .ok (some sending)) :
    ∀ left ∈ sending.rest, ¬left.SendsResult := by
  obtain ⟨skipped, entry, later, first, rfl, _, sends, rfl⟩ :=
    nextSend_eq_some found
  intro left member
  rcases List.mem_append.mp member with own | behind
  · have safe := branch.safe entry (by simp)
    rcases sends.mem_rest own with ⟨ws, rfl, _⟩ | ⟨ws, rfl, _⟩ |
      ⟨ws, message, _, rfl⟩ | ⟨ws, _, rfl⟩
    · exact id
    · exact id
    · exact safe.elim
    · exact safe.elim
  · refine branch.mute_tail left ?_
    cases skipped with
    | nil => exact behind
    | cons head others => simp [behind]

/-- No send of an operation raises. -/
theorem Transition.nextSend_ne_error
    (branch : m.Transition op after todo)
    (app : AppState)
    (raised : KeyError) :
    after.nextSend app todo ≠ .error raised := by
  intro raises
  obtain ⟨entry, member, failed⟩ := nextSend_eq_error raises
  have safe := branch.safe entry member
  obtain ⟨ws, absent, rfl | rfl⟩ := unguarded_of_firstSend_eq_error failed
  · exact absent safe
  · exact safe

end ConnectionManager

namespace System

variable {s middle after : System} {c : Coroutine} {event : Event} {op : Op}
  {todo : List Todo} {next : Next}

/-! ## Which operation it is -/

/-- The operation that a message of a device leads to. -/
def asks? (s : System) (ws : WebSocket) : ClientMessage → Option Op
  | .notAnObject => some (.disconnect ws)
  | .register name => some (.setName ws name)
  | .requestControl requestId => some (.requestControl ws requestId)
  | .cancelControlRequest => some (.cancelRequest ws)
  | .muteTrack none _ =>
      if s.manager.isPrimary ws then some (.disconnect ws) else none
  | .muteTrack (some trackIndex) _ =>
      if s.manager.isPrimary ws ∧ trackIndex.nonneg ∧ ¬packs trackIndex then
        some (.disconnect ws)
      else none
  | .releaseControl =>
      if s.manager.isPrimary ws then some (.release ws) else none
  | .respondControl requestId accept =>
      if s.manager.isPrimary ws then some (.respond ws requestId accept)
      else none
  | .grantControl connectionId =>
      if s.manager.isPrimary ws then some (.grant ws connectionId) else none
  | _ => none

/-- A coroutine that is resumed ends: its send raises unguarded, or it leaves
with nothing more to send. -/
def Ends (s : System) (raised : Bool) (phase : Phase) : Prop :=
  phase.Unwinds raised ∨
    phase.next? = some .leave ∧
      s.manager.nextSend s.ableton.state phase.todo = .ok none

instance (raised : Bool) : (phase : Phase) → Decidable (phase.Unwinds raised)
  | .sending _ guarded _ _ =>
      inferInstanceAs (Decidable (raised = true ∧ guarded = false))
  | .ready .. | .receiving | .done => inferInstanceAs (Decidable False)

instance (s : System) (raised : Bool) (phase : Phase) :
    Decidable (s.Ends raised phase) :=
  inferInstanceAs (Decidable (_ ∨ _ ∧ _))

/-- The operation of the manager that an event performs. -/
def operation? (s : System) : Event → Option Op
  | .accept ws params connectionId => some (.connect ws params connectionId)
  | .receive ws message => s.asks? ws message
  | .hangUp ws => some (.disconnect ws)
  | .resume (.handler ws) raised =>
      (s.phase? (.handler ws)).bind fun phase =>
        if s.Ends raised phase then some (.disconnect ws) else none
  | .resume (.task _) _ => none
  | .fire timer => some (.fire timer)
  | .wait time => some (.wait time)
  | .peerGone _ | .ableton _ => none

/-! ## What it leaves -/

/-- No result is still to be sent by any coroutine. -/
def Mute (s : System) : Prop :=
  ∀ c phase, s.phase? c = some phase → phase.Mute

/-- No operation is performed, no result is sent, and none comes to be sent. -/
structure Idle (s after : System) : Prop where
  manager : after.manager = s.manager
  sent : ∃ frames, after.sent = s.sent ++ frames ∧
    ∀ sent ∈ frames, ¬sent.frame.message.IsResult
  phases : ∀ c phase, after.phase? c = some phase →
    s.phase? c = some phase ∨ phase.Mute

/-- An operation is performed: the manager makes its transition, and the
coroutine is at the first send of its to-do list, if there is one. -/
inductive Operates (s : System) (op : Op) (after : System) : Prop
  | sends
      {c : Coroutine} {todo : List Todo} {sending : Sending} {next : Next} :
      s.manager.Enabled op →
      s.manager.Transition op after.manager todo →
      after.manager.nextSend s.ableton.state todo = .ok (some sending) →
      after.sent = s.sent ++ [⟨c, sending.frame⟩] →
      after.phase? c = some (.sending sending.frame.socket sending.guarded
        sending.rest next) →
      (∀ other, other ≠ c → after.phase? other = s.phase? other) →
      Operates s op after
  | silent {todo : List Todo} :
      s.manager.Enabled op →
      s.manager.Transition op after.manager todo →
      (∀ entry ∈ todo,
        after.manager.firstSend s.ableton.state entry = .ok none) →
      after.sent = s.sent →
      (∀ c phase, after.phase? c = some phase →
        s.phase? c = some phase ∨ phase.todo = []) →
      Operates s op after

/-- An event performs its operation, or is idle. -/
def Executes (s : System) (event : Event) (after : System) : Prop :=
  (∀ op, s.operation? event = some op → s.Operates op after) ∧
    (s.operation? event = none → s.Idle after)

/-- The commands and the task numbers do not matter. -/
theorem Operates.congr
    (operates : middle.Operates op after)
    (manager : middle.manager = s.manager)
    (ableton : middle.ableton = s.ableton)
    (coroutines : middle.coroutines = s.coroutines)
    (sent : middle.sent = s.sent) :
    s.Operates op after := by
  have phases : ∀ c, middle.phase? c = s.phase? c := by
    intro c
    simp only [phase?, coroutines]
  cases operates with
  | sends enabled branch found sends itself others =>
      rw [manager] at enabled branch
      rw [ableton] at found
      rw [sent] at sends
      exact .sends enabled branch found sends itself
        fun other different => (others other different).trans (phases other)
  | silent enabled branch nothing same stood =>
      rw [manager] at enabled branch
      rw [ableton] at nothing
      rw [sent] at same
      refine .silent enabled branch nothing same fun c phase stands => ?_
      rw [← phases]
      exact stood c phase stands

theorem mute_of_todo
    {phase : Phase}
    (idle : phase.todo = []) :
    phase.Mute := by
  intro entry member
  rw [idle] at member
  cases member

/-- Whatever an event does, no result stays behind to be sent. -/
theorem Executes.mute
    (executes : s.Executes event after)
    (silent : s.Mute) :
    after.Mute := by
  intro c phase stands
  cases performed : s.operation? event with
  | none =>
      rcases (executes.2 performed).phases c phase stands with before | idle
      · exact silent c phase before
      · exact idle
  | some op =>
      cases executes.1 op performed with
      | silent _ _ _ _ phases =>
          rcases phases c phase stands with before | idle
          · exact silent c phase before
          · exact mute_of_todo idle
      | @sends acting _ _ _ _ branch found _ itself others =>
          by_cases own : c = acting
          · subst own
            obtain rfl := Option.some.inj (itself.symm.trans stands)
            exact branch.mute_rest found
          · exact silent c phase ((others c own).symm.trans stands)

/-! ## Idle parts of a step -/

theorem idle_of_eq
    (manager : after.manager = s.manager)
    (sent : after.sent = s.sent)
    (coroutines : after.coroutines = s.coroutines) :
    s.Idle after := by
  refine ⟨manager, ⟨[], by rw [sent, List.append_nil], by simp⟩, ?_⟩
  intro c phase stands
  rw [phase?, coroutines] at stands
  exact Or.inl stands

theorem Idle.trans
    (first : s.Idle middle)
    (second : middle.Idle after) :
    s.Idle after := by
  obtain ⟨same, ⟨early, before, plain⟩, phases⟩ := first
  obtain ⟨same', ⟨late, later, plain'⟩, phases'⟩ := second
  refine ⟨same'.trans same, ⟨early ++ late, ?_, ?_⟩, ?_⟩
  · rw [later, before, List.append_assoc]
  · exact List.forall_mem_append.mpr ⟨plain, plain'⟩
  · intro c phase stands
    rcases phases' c phase stands with between | idle
    · exact phases c phase between
    · exact Or.inr idle

theorem phase?_enter
    {other : Coroutine} {phase entered : Phase}
    (stands : (s.enter c entered).phase? other = some phase) :
    s.phase? other = some phase ∨ phase = entered := by
  by_cases own : other = c
  · subst own
    rw [phase?_enter_self] at stands
    exact Or.inr (Option.some.inj stands).symm
  · rw [phase?_enter_of_ne own] at stands
    exact Or.inl stands

theorem idle_enter
    {entered : Phase}
    (silent : entered.Mute) :
    s.Idle (s.enter c entered) := by
  refine ⟨rfl, ⟨[], (List.append_nil _).symm, by simp⟩, ?_⟩
  intro other phase stands
  rcases phase?_enter stands with before | rfl
  · exact Or.inl before
  · exact Or.inr silent

theorem idle_suspend
    {sending : Sending}
    (silent : ∀ entry ∈ todo, ¬entry.SendsResult)
    (found : s.manager.nextSend s.ableton.state todo = .ok (some sending)) :
    s.Idle (s.suspend c sending next) := by
  obtain ⟨frame, rest⟩ := ConnectionManager.mute_of_nextSend found silent
  refine ⟨rfl, ⟨[⟨c, sending.frame⟩], rfl, by simpa using frame⟩, ?_⟩
  intro other phase stands
  rcases phase?_enter stands with before | rfl
  · exact Or.inl before
  · exact Or.inr rest

theorem idle_createTask
    {entry : Todo}
    (silent : ¬entry.SendsResult) :
    s.Idle (s.createTask [entry]) := by
  have created : s.Idle (s.enter (.task s.nextTask)
      (.ready [entry] .finish)) := by
    refine idle_enter fun other member => ?_
    obtain rfl := List.mem_singleton.mp member
    exact silent
  exact created.trans (idle_of_eq rfl rfl rfl)

theorem idle_performAll
    (origin : Option WebSocket)
    (effects : List Effect) :
    s.Idle (s.performAll origin effects) := by
  induction effects generalizing s with
  | nil => exact idle_of_eq rfl rfl rfl
  | cons effect rest inductionHypothesis =>
      have first : s.Idle (s.perform origin effect) := by
        cases effect with
        | send command => exact idle_of_eq rfl rfl rfl
        | stateChange => exact idle_createTask id
        | positionUpdate | tracksChange | meterUpdate =>
            exact idle_createTask id
      exact first.trans inductionHypothesis

theorem idle_conclude
    (stays : next ≠ .leave) :
    s.Idle (s.conclude c next) := by
  have enters : ∀ {s : System} {phase : Phase}, phase.todo = [] →
      s.Idle (s.enter c phase) := fun idle => idle_enter (mute_of_todo idle)
  cases next with
  | receive | finish => exact enters rfl
  | leave => exact absurd rfl stays
  | land jump =>
      cases c with
      | task number => exact enters rfl
      | handler ws =>
          obtain ⟨ableton, commands, same⟩ := s.land_eq ws jump
          have landed : s.Idle (s.land ws jump) := by
            rw [same]
            exact idle_of_eq rfl rfl rfl
          exact landed.trans (enters rfl)

/-- A to-do list without results is run by a coroutine that does not end. -/
theorem idle_run
    (silent : ∀ entry ∈ todo, ¬entry.SendsResult)
    (calm : ∀ raised, s.manager.nextSend s.ableton.state todo =
      .error raised → ∃ number, c = .task number)
    (stays : next = .leave →
      s.manager.nextSend s.ableton.state todo ≠ .ok none) :
    s.Idle (s.run c todo next) := by
  unfold run
  split
  · rename_i raised raises
    obtain ⟨number, rfl⟩ := calm raised raises
    exact (idle_enter (mute_of_todo rfl)).trans (idle_of_eq rfl rfl rfl)
  · rename_i nothing
    exact idle_conclude fun leaves => stays leaves nothing
  · rename_i found
    exact idle_suspend silent found

/-! ## Operations -/

theorem operates_enter
    {m : ConnectionManager} {phase : Phase}
    (enabled : s.manager.Enabled op)
    (branch : s.manager.Transition op m todo)
    (nothing : m.nextSend s.ableton.state todo = .ok none)
    (idle : phase.todo = []) :
    s.Operates op ({ s with manager := m }.enter c phase) := by
  refine .silent enabled branch (ConnectionManager.nextSend_eq_none nothing)
    rfl ?_
  intro other stood stands
  rcases phase?_enter stands with before | rfl
  · exact Or.inl before
  · exact Or.inr idle

theorem operates_suspend
    {m : ConnectionManager} {sending : Sending}
    (enabled : s.manager.Enabled op)
    (branch : s.manager.Transition op m todo)
    (found : m.nextSend s.ableton.state todo = .ok (some sending)) :
    s.Operates op ({ s with manager := m }.suspend c sending next) :=
  .sends enabled branch found rfl (phase?_enter_self _ _)
    fun _ different => phase?_enter_of_ne different _

/-- A handler leaves. -/
theorem operates_unwind
    {ws : WebSocket}
    (fits : s.Fits)
    (present : ws ∈ s.manager.clients) :
    s.Operates (.disconnect ws) (s.unwind (.handler ws)) := by
  have enabled : s.manager.Enabled (.disconnect ws) := present
  obtain ⟨m, todo, applied⟩ :=
    ConnectionManager.apply_isOk fits.roles enabled
  have branch := ConnectionManager.transition_of_apply applied
  simp only [unwind, applied, runLast]
  split
  · rename_i raised raises
    exact absurd raises (branch.nextSend_ne_error _ raised)
  · rename_i nothing
    exact operates_enter present branch nothing rfl
  · rename_i found
    exact operates_suspend present branch found

/-- The goodbye of a release is always sent. -/
theorem nextSend_release
    {m after : ConnectionManager} {ws : WebSocket} {app : AppState}
    (primary : m.primary = some ws)
    (branch : m.Transition (.release ws) after todo) :
    after.nextSend app todo ≠ .ok none := by
  cases branch with
  | releases | releasesTo =>
      rw [primary]
      simp [ConnectionManager.nextSend, ConnectionManager.firstSend]

/-- A coroutine performs an operation and goes on. -/
theorem operates_operate
    (fits : s.Fits)
    (performs : s.Performs c op next) :
    s.Operates op (s.operate c op next) := by
  have enabled := performs.enabled fits
  obtain ⟨m, todo, applied⟩ := ConnectionManager.apply_isOk fits.roles enabled
  have branch := ConnectionManager.transition_of_apply applied
  simp only [operate, applied, run]
  split
  · rename_i raised raises
    exact absurd raises (branch.nextSend_ne_error _ raised)
  · rename_i nothing
    cases performs with
    | accepted | heard | left | fired =>
        exact operates_enter enabled branch nothing rfl
    | released _ primary =>
        exact absurd nothing (nextSend_release primary branch)
  · rename_i found
    exact operates_suspend enabled branch found

/-! ## Event by event -/

theorem executes_of_operates
    (performed : s.operation? event = some op)
    (operates : s.Operates op after) :
    s.Executes event after := by
  refine ⟨fun other same => ?_, fun none => ?_⟩
  · obtain rfl := Option.some.inj (performed.symm.trans same)
    exact operates
  · rw [performed] at none
    cases none

theorem executes_of_idle
    (nothing : s.operation? event = none)
    (idle : s.Idle after) :
    s.Executes event after := by
  refine ⟨fun op performed => ?_, fun _ => idle⟩
  rw [nothing] at performed
  cases performed

theorem idle_handleJump
    {ws : WebSocket}
    (songIndex sectionIndex : Option Int) :
    s.Idle (s.handleJump ws songIndex sectionIndex) := by
  unfold handleJump
  split
  · split
    · exact idle_of_eq rfl rfl rfl
    · rename_i songIndex sectionIndex _ target _
      generalize jumpTo s.ableton.state target = jump
      obtain ⟨commands, same⟩ := performAll_of_sends
        (s := s.queue songIndex sectionIndex jump) (some ws)
        (loopFor target) fun effect member => loopFor_sends member
      have queued : s.Idle { s.queue songIndex sectionIndex jump with
        commands := commands } := idle_of_eq rfl rfl rfl
      simp only [same]
      refine queued.trans (idle_run ?_ ?_ (by simp))
      · intro entry member
        obtain rfl := List.mem_singleton.mp member
        exact id
      · intro raised raises
        obtain ⟨entry, member, failed⟩ :=
          ConnectionManager.nextSend_eq_error raises
        obtain rfl := List.mem_singleton.mp member
        cases failed
  · exact idle_of_eq rfl rfl rfl

/-- The primary's message. -/
theorem executes_obey
    {ws : WebSocket} {message : ClientMessage}
    (fits : s.Fits)
    (stands : s.phase? (.handler ws) = some .receiving)
    (primary : s.manager.isPrimary ws = true)
    (command : message.IsCommand) :
    s.Executes (.receive ws message) (s.obey ws message) := by
  have present := fits.connected stands trivial
  have performs : ∀ {op}, op.AskedBy ws →
      s.Performs (.handler ws) op .receive := fun asked => .heard stands asked
  have sends : ∀ {effects}, s.Idle (s.performAll (some ws) effects) :=
    idle_performAll (some ws) _
  cases message with
  | jump songIndex sectionIndex =>
      exact executes_of_idle rfl (idle_handleJump _ _)
  | muteTrack trackIndex muted =>
      cases trackIndex with
      | none =>
          exact executes_of_operates (by simp [operation?, asks?, primary])
            (operates_unwind fits present)
      | some index =>
          simp only [obey]
          split
          · rename_i negative
            exact executes_of_idle
              (by simp [operation?, asks?, negative])
              (idle_of_eq rfl rfl rfl)
          · rename_i nonneg
            split
            · rename_i fitting
              exact executes_of_idle
                (by simp [operation?, asks?, fitting]) sends
            · rename_i tooLarge
              exact executes_of_operates
                (by simp [operation?, asks?, primary, tooLarge,
                  not_not.mp nonneg])
                (operates_unwind fits present)
  | play | generateCues => exact executes_of_idle rfl sends
  | stop =>
      exact executes_of_idle rfl (sends.trans (idle_of_eq rfl rfl rfl))
  | releaseControl =>
      refine executes_of_operates (by simp [operation?, asks?, primary])
        (operates_operate fits (.released stands ?_))
      simpa [ConnectionManager.isPrimary] using primary
  | respondControl | grantControl =>
      refine executes_of_operates (by simp [operation?, asks?, primary])
        (operates_operate fits (performs ?_))
      exact rfl
  | analyzeGuide | otherTransport | unknown =>
      exact executes_of_idle rfl (idle_of_eq rfl rfl rfl)
  | badJson | notAnObject | refresh | register | requestControl
  | cancelControlRequest => exact command.elim

/-- A device's message performs what it asks for. -/
theorem executes_hear
    {ws : WebSocket}
    (fits : s.Fits)
    (stands : s.phase? (.handler ws) = some .receiving)
    (message : ClientMessage) :
    s.Executes (.receive ws message) (s.hear ws message) := by
  have performs : ∀ {op}, op.AskedBy ws →
      s.Performs (.handler ws) op .receive := fun asked => .heard stands asked
  have rests : s.Idle s := idle_of_eq rfl rfl rfl
  have observed : ∀ {trackIndex muted}, s.manager.isPrimary ws = false →
      s.asks? ws (.muteTrack trackIndex muted) = none := by
    intro trackIndex muted observer
    cases trackIndex <;> simp [asks?, observer]
  cases message with
  | badJson => exact executes_of_idle rfl rests
  | notAnObject =>
      exact executes_of_operates rfl
        (operates_unwind fits (fits.connected stands trivial))
  | refresh =>
      obtain ⟨commands, same⟩ := s.performAll_refresh (some ws)
      simp only [hear, same]
      have fetched : s.Idle { s with commands := commands } :=
        idle_of_eq rfl rfl rfl
      refine executes_of_idle rfl (fetched.trans (idle_run ?_ ?_ (by simp)))
      · intro entry member
        obtain rfl := List.mem_singleton.mp member
        exact id
      · intro raised raises
        obtain ⟨entry, member, failed⟩ :=
          ConnectionManager.nextSend_eq_error raises
        obtain rfl := List.mem_singleton.mp member
        obtain ⟨absent, missing, same | same⟩ :=
          ConnectionManager.unguarded_of_firstSend_eq_error failed
        · obtain rfl := Todo.sendState.inj same
          exact absurd (fits.connected stands trivial) missing
        · cases same
  | register | requestControl | cancelControlRequest =>
      refine executes_of_operates rfl (operates_operate fits (performs ?_))
      exact rfl
  | _ =>
      simp only [hear]
      split
      · rename_i primary
        exact executes_obey fits stands primary trivial
      · rename_i observer
        have observer : s.manager.isPrimary ws = false := by
          simpa using observer
        refine executes_of_idle ?_ rests
        first | exact observed observer | simp [operation?, asks?, observer]

theorem executes_resume
    {raised : Bool}
    (fits : s.Fits)
    (silent : s.Mute)
    (taken : s.resume c raised = some after) :
    s.Executes (.resume c raised) after := by
  cases resumes_of_resume taken with
  | @unwinds ws rest next raises stands =>
      obtain ⟨rfl, owner, rfl⟩ := fits.handler_of_unguarded stands
      refine executes_of_operates ?_ (operates_unwind fits
        (fits.connected stands (by simp [Phase.Live])))
      simp [operation?, stands, Ends, Phase.Unwinds, raises]
  | @runs phase next stands goesOn caught =>
      have idle (stays : next = .leave →
          s.manager.nextSend s.ableton.state phase.todo ≠ .ok none) :
          s.Idle (s.run c phase.todo next) :=
        idle_run (silent c phase stands)
          (fun _ raises => fits.task_of_raises stands raises) stays
      cases c with
      | task number =>
          refine executes_of_idle rfl (idle fun leaves => ?_)
          obtain ⟨ws, impossible⟩ :=
            fits.handler_of_next? stands goesOn (by simp [leaves])
          cases impossible
      | handler ws =>
          by_cases ends : s.Ends raised phase
          · obtain unwinds | ⟨leaves, nothing⟩ := ends
            · exact absurd unwinds caught
            obtain rfl := Option.some.inj (goesOn.symm.trans leaves)
            have present : ws ∈ s.manager.clients := by
              refine fits.connected stands ?_
              cases phase with
              | ready | sending =>
                  obtain rfl := Option.some.inj goesOn
                  simp [Phase.Live]
              | receiving | done => cases goesOn
            simp only [run, nothing, conclude]
            refine executes_of_operates ?_ (operates_unwind fits present)
            simp [operation?, stands, Ends, leaves, nothing]
          · refine executes_of_idle ?_ (idle ?_)
            · simp [operation?, stands, ends]
            · rintro rfl nothing
              exact ends (Or.inr ⟨goesOn, nothing⟩)

/-- Every event performs its operation, or is idle. -/
theorem executes_of_exec
    (fits : s.Fits)
    (silent : s.Mute)
    (taken : s.exec event = some after) :
    s.Executes event after := by
  cases event with
  | accept ws params connectionId =>
      simp only [exec] at taken
      split at taken
      · rename_i fresh
        obtain rfl := Option.some.inj taken
        obtain ⟨commands, same⟩ := s.performAll_refresh (some ws)
        rw [same]
        have fetched : ({ s with commands := commands } : System).Fits :=
          fits.congr rfl rfl (Nat.le_refl _)
        exact executes_of_operates rfl
          ((operates_operate fetched (.accepted fresh)).congr rfl rfl rfl rfl)
      · cases taken
  | receive ws message =>
      obtain ⟨stands, rfl⟩ := hear_of_receive taken
      exact executes_hear fits stands message
  | hangUp ws =>
      simp only [exec] at taken
      split at taken
      · rename_i both
        obtain rfl := Option.some.inj taken
        exact executes_of_operates rfl
          (operates_unwind fits (fits.connected both.1 trivial))
      · cases taken
  | resume c raised => exact executes_resume fits silent taken
  | fire timer =>
      simp only [exec, fire] at taken
      split at taken
      · cases taken
      · rename_i sleeping found
        split at taken
        · obtain rfl := Option.some.inj taken
          have numbered : ({ s with nextTask := s.nextTask + 1 } :
              System).Fits := fits.congr rfl rfl (Nat.le_succ _)
          have performs : ({ s with nextTask := s.nextTask + 1 } :
              System).Performs (.task s.nextTask) (.fire timer) .finish :=
            .fired fits.fresh (Nat.lt_succ_self _) (by simp [found])
          exact executes_of_operates rfl
            ((operates_operate numbered performs).congr rfl rfl rfl rfl)
        · cases taken
  | peerGone ws =>
      obtain rfl := Option.some.inj taken
      exact executes_of_idle rfl (idle_of_eq rfl rfl rfl)
  | wait time =>
      simp only [exec] at taken
      split at taken
      · obtain rfl := Option.some.inj taken
        exact executes_of_operates rfl (.silent trivial .waits (by simp) rfl
          fun _ _ stands => Or.inl stands)
      · cases taken
  | ableton event =>
      simp only [exec] at taken
      obtain rfl := Option.some.inj taken
      have handled : s.Idle { s with
          ableton := (s.ableton.handle event).1 } := idle_of_eq rfl rfl rfl
      exact executes_of_idle rfl (handled.trans (idle_performAll none _))

/-- In every reachable state the coroutines stand where they can, and no result
is still to be sent. -/
theorem mute_of_reachable
    (reachable : Reachable System.exec {} s) :
    s.Fits ∧ s.Mute := by
  refine reachable.invariant (fun s => s.Fits ∧ s.Mute) ⟨fits_initial, ?_⟩ ?_
  · intro c phase stands
    simp [phase?] at stands
  · rintro current event after ⟨fits, silent⟩ taken
    exact ⟨fits.exec taken, (executes_of_exec fits silent taken).mute silent⟩

end System
end AbletonTracks
