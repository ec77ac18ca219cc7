import AbletonTracks.Manager.Promotion
import AbletonTracks.Server.FullState
import AbletonTracks.Server.Operations

/-!
# The outcome of a control request

A request that becomes pending waits until one step of the server settles it:
the requester becomes primary and is pushed its role, or it is sent one result.
Whatever ought to settle it does so.  Where control was released, the push
waits for the goodbye to the old primary, and others come in between.

Two kinds of steps break this.  Closing the primary's socket promotes the
requester behind the back of its request, where its own install comes next; and
a push that comes late tells the requester that it is an observer, where it has
lost control again by then.
-/

namespace AbletonTracks

open Library

/-- The message tells its device that it is primary now, and why. -/
def Message.GivesControl : Message → Prop
  | .state _ .primary _ _ (some _) => True
  | _ => False

instance : DecidablePred Message.GivesControl
  | .state _ .primary _ _ (some _) => inferInstanceAs (Decidable True)
  | .state _ .primary _ _ none | .state _ .observer _ _ _ | .roster _
  | .handoff _ | .controlRequestResult .. | .controlReleased | .position _
  | .tracks _ | .meters _ | .jumpQueued .. => inferInstanceAs (Decidable False)

namespace System

variable {s after current finish : System} {c : Coroutine} {event : Event}
  {op : Op} {todo : List Todo} {requester ws : WebSocket}
  {requestId : String} {request : Request} {step : Step System Event}
  {steps future later : List (Step System Event)}

open ConnectionManager

/-! ## What a step does to a request -/

/-- The request is pending. -/
def Pending
    (requester : WebSocket)
    (requestId : String)
    (s : System) : Prop :=
  ∃ request ∈ s.manager.request,
    request.requester = requester ∧ request.requestId = requestId

instance (requester : WebSocket) (requestId : String) :
    DecidablePred (Pending requester requestId) :=
  fun s => inferInstanceAs (Decidable (∃ request ∈ s.manager.request, _ ∧ _))

/-- The request becomes pending. -/
def Opens
    (requester : WebSocket)
    (requestId : String)
    (step : Step System Event) : Prop :=
  ¬Pending requester requestId step.before ∧
    Pending requester requestId step.after

instance (requester : WebSocket) (requestId : String) :
    DecidablePred (Opens requester requestId) :=
  fun _ => inferInstanceAs (Decidable (_ ∧ _))

/-- The frames that a step hands to sockets. -/
def newFrames (step : Step System Event) : List Frame :=
  (step.after.sent.drop step.before.sent.length).map Sent.frame

/-- The results that a step sends to a socket for a request. -/
def newResults
    (requester : WebSocket)
    (requestId : String)
    (step : Step System Event) : List RequestResult :=
  resultsFor requester requestId (newFrames step)

/-- The step tells a device that it is primary now. -/
def Tells (requester : WebSocket) (step : Step System Event) : Prop :=
  ∃ frame ∈ newFrames step,
    frame.socket = requester ∧ frame.message.GivesControl

instance (requester : WebSocket) : DecidablePred (Tells requester) :=
  fun step => inferInstanceAs (Decidable (∃ frame ∈ newFrames step, _ ∧ _))

/-- The coroutine says goodbye to a primary that released control, and pushes
the requester its role then. -/
def Owes (requester : WebSocket) (c : Coroutine) (s : System) : Prop :=
  ∃ old rest next, s.phase? c =
    some (.sending old true (.push requester .slotEmpty :: rest) next)

/-! ## Outcomes -/

/-- The request stays pending, with a timer that will end it, while its
requester observes; it is sent nothing about it, and nothing has happened that
settles a request. -/
structure Waits
    (requester : WebSocket)
    (requestId : String)
    (step : Step System Event) : Prop where
  pending : ∃ request task timer,
    step.after.manager.request = some request ∧
      request.requester = requester ∧ request.requestId = requestId ∧
      request.timer = some task ∧
      step.after.manager.loop.timer? task = some timer ∧
      timer.body = .requestExpiry requestId
  observes : step.after.manager.primary ≠ some requester
  silent : newResults requester requestId step = []
  unsettled : ∀ op, step.before.operation? step.label = some op →
    ¬Closes requester requestId step.before.manager op

/-- The requester is told at once, or by the coroutine that owes it the push:
that does nothing else before, and has not done it at the end at worst. -/
def ToldInTurn
    (requester : WebSocket)
    (c : Coroutine)
    (later : List (Step System Event)) : Prop :=
  ∃ suspended rest, later = suspended ++ rest ∧
    (∀ step ∈ suspended, Owes requester c step.after) ∧
    (rest = [] ∨ ∃ turn beyond, rest = turn :: beyond ∧ Tells requester turn)

/-- The step ends the request and makes the requester primary, which is told
so. -/
structure Promotes
    (requester : WebSocket)
    (requestId : String)
    (step : Step System Event)
    (later : List (Step System Event)) : Prop where
  settled : step.after.manager.request = none
  primary : step.after.manager.primary = some requester
  silent : newResults requester requestId step = []
  told : Tells requester step ∨
    ∃ c, Owes requester c step.after ∧ ToldInTurn requester c later

/-- The step ends the request with one result and without control. -/
structure Refuses
    (requester : WebSocket)
    (requestId : String)
    (step : Step System Event) : Prop where
  settled : step.after.manager.request = none
  observes : step.after.manager.primary ≠ some requester
  result : ∃ result ∈ [RequestResult.denied, .expired, .cancelled],
    newResults requester requestId step = [result]

/-- In the steps after it was opened, the request waits until one step promotes
or refuses its requester; no result comes afterwards. -/
def HasOneOutcome
    (requester : WebSocket)
    (requestId : String)
    (future : List (Step System Event)) : Prop :=
  ∃ waiting rest, future = waiting ++ rest ∧
    (∀ step ∈ waiting, Waits requester requestId step) ∧
    (rest = [] ∨ ∃ step later, rest = step :: later ∧
      (Promotes requester requestId step later ∨
        Refuses requester requestId step) ∧
      ∀ other ∈ later, newResults requester requestId other = [])

/-- Every request of a run that becomes pending has one outcome for as long as
its requester stays connected and its id is not drawn again. -/
def EveryRequestHasOneOutcome (steps : List (Step System Event)) : Prop :=
  ∀ past opening future beyond requester requestId,
    steps = past ++ opening :: (future ++ beyond) →
    Opens requester requestId opening →
    (∀ step ∈ future, requester ∈ step.after.manager.clients) →
    (∀ step ∈ future, ∀ ws, ¬Opens ws requestId step) →
    HasOneOutcome requester requestId future

/-! ## Steps that go wrong -/

/-- The primary's socket closes, and the one that takes over is the
requester. -/
def PromotesBehind (s : System) (event : Event) : Prop :=
  ∃ op ∈ s.operation? event, s.manager.PromotesRequester op

/-- A coroutine goes on to push a requester its role, which has lost control
again. -/
def PushesLate (s : System) (event : Event) : Prop :=
  ∃ c raised requester, event = .resume c raised ∧ Owes requester c s ∧
    requester ∈ s.manager.clients ∧ s.manager.primary ≠ some requester

/-! ## The frames of a step -/

theorem newFrames_eq
    {frames : List Sent}
    (sent : step.after.sent = step.before.sent ++ frames) :
    newFrames step = frames.map Sent.frame := by
  rw [newFrames, sent, List.drop_left]

theorem tells_of_sent
    {message : Message}
    (sent : step.after.sent =
      step.before.sent ++ [⟨c, ⟨requester, message⟩⟩])
    (gives : message.GivesControl) :
    Tells requester step := by
  refine ⟨⟨requester, message⟩, ?_, rfl, gives⟩
  rw [newFrames_eq sent]
  exact List.mem_singleton_self _

/-- A frame without a result brings none. -/
theorem resultsFor_eq_nil_of_plain
    {frames : List Frame}
    (plain : ∀ frame ∈ frames, ¬frame.message.IsResult) :
    resultsFor requester requestId frames = [] := by
  rw [resultsFor, List.filterMap_eq_nil_iff]
  intro frame member
  split
  · rename_i id result reason message
    refine absurd ?_ (plain frame member)
    rw [message]
    trivial
  · rfl

theorem Idle.newResults_eq_nil
    (idle : step.before.Idle step.after) :
    newResults requester requestId step = [] := by
  obtain ⟨frames, sent, plain⟩ := idle.sent
  rw [newResults, newFrames_eq sent]
  refine resultsFor_eq_nil_of_plain fun frame member => ?_
  obtain ⟨sent, inFrames, rfl⟩ := List.mem_map.mp member
  exact plain sent inFrames

/-- What is sent first brings a result only if it is owed. -/
theorem resultsFor_of_nextSend
    {m : ConnectionManager} {app : AppState} {sending : Sending}
    (found : m.nextSend app todo = .ok (some sending))
    (owed : resultsOwed requester requestId todo = [])
    (safe : ∀ entry ∈ todo, m.Safe entry) :
    resultsFor requester requestId [sending.frame] = [] := by
  obtain ⟨skipped, entry, later, first, rfl, _, sends, rfl⟩ :=
    nextSend_eq_some found
  have own : entry ∈ skipped ++ entry :: later := by simp
  have nothing := List.filterMap_eq_nil_iff.mp owed entry own
  have allowed := safe entry own
  have plain : ∀ message : Message, ¬message.IsResult →
      resultsFor requester requestId [⟨first.frame.socket, message⟩] = [] :=
    fun message plain => resultsFor_eq_nil_of_plain (by simpa using plain)
  cases sends with
  | push built | sendState built =>
      obtain ⟨client, _, rfl⟩ := snapshotFor_eq_ok built
      exact plain _ id
  | @sendResult ws id result reason =>
      cases id with
      | none => exact plain _ id
      | some id => simpa [resultsFor] using nothing
  | sendSnapshot | broadcastFullState | broadcast | deliver =>
      exact allowed.elim
  | broadcastHandoff | broadcastRoster | sendHandoff | sendReleased =>
      exact plain _ id

/-- An operation that owes no result sends none. -/
theorem Operates.newResults_eq_nil
    (operates : step.before.Operates op step.after)
    (owed : ∀ todo,
      step.before.manager.Transition op step.after.manager todo →
      resultsOwed requester requestId todo = []) :
    newResults requester requestId step = [] := by
  cases operates with
  | sends _ branch found sent =>
      rw [newResults, newFrames_eq sent]
      exact resultsFor_of_nextSend found (owed _ branch) branch.safe
  | silent _ branch _ sent =>
      have nothing : step.after.sent = step.before.sent ++ [] := by
        rw [sent, List.append_nil]
      rw [newResults, newFrames_eq nothing]
      rfl

/-! ## One step of a pending request -/

/-- What a step makes of a pending request. -/
inductive Outcome (request : Request) (step : Step System Event) : Prop
  | waits :
      step.after.manager.request = some request →
      Waits request.requester request.requestId step →
      Outcome request step
  | promoted :
      step.after.manager.request = none →
      step.after.manager.primary = some request.requester →
      newResults request.requester request.requestId step = [] →
      (Tells request.requester step ∨
        ∃ c, Owes request.requester c step.after) →
      Outcome request step
  | refused :
      Refuses request.requester request.requestId step →
      Outcome request step

/-- The entry that comes first is sent first. -/
theorem nextSend_of_head
    {m : ConnectionManager} {app : AppState} {entry : Todo} {first : Sending}
    (sends : m.firstSend app entry = .ok (some first))
    (rest : List Todo) :
    m.nextSend app (entry :: rest) =
      .ok (some { first with rest := first.rest ++ rest }) := by
  simp only [nextSend, sends]

/-- A role that is pushed is the role of that moment. -/
theorem firstSend_push
    {m : ConnectionManager}
    (present : ws ∈ m.clients)
    (app : AppState)
    (reason : RoleReason) :
    ∃ client : Client, m.firstSend app (.push ws reason) =
      .ok (some ⟨⟨ws, .state app.fullSnapshot (m.roleOf ws)
        client.connectionId handoffProtocol (some reason)⟩, true, []⟩) := by
  obtain ⟨message, built⟩ := snapshotFor_of_mem present app (some reason)
  obtain ⟨client, _, rfl⟩ := snapshotFor_eq_ok built
  refine ⟨client, ?_⟩
  simp only [firstSend, if_pos present, built]
  rfl

/-- An operation whose to-do list begins with an entry that sends makes that
send. -/
theorem Operates.head
    (operates : s.Operates op after) :
    ∃ todo, s.manager.Enabled op ∧
      s.manager.Transition op after.manager todo ∧
      ∀ entry rest first, todo = entry :: rest →
        after.manager.firstSend s.ableton.state entry = .ok (some first) →
        ∃ c next, after.sent = s.sent ++ [⟨c, first.frame⟩] ∧
          after.phase? c = some (.sending first.frame.socket first.guarded
            (first.rest ++ rest) next) := by
  cases operates with
  | @sends c todo sending next enabled branch found sent stands =>
      refine ⟨todo, enabled, branch, ?_⟩
      rintro entry rest first rfl sends
      rw [nextSend_of_head sends] at found
      obtain rfl := Option.some.inj (Except.ok.inj found)
      exact ⟨c, next, sent, stands⟩
  | @silent todo enabled branch nothing =>
      refine ⟨todo, enabled, branch, ?_⟩
      rintro entry rest first rfl sends
      rw [nothing entry List.mem_cons_self] at sends
      cases sends

/-- A pending request has its timer. -/
theorem exists_requestTimer
    {m : ConnectionManager}
    (timers : m.TimersFit)
    (pending : m.request = some request) :
    ∃ task timer, request.timer = some task ∧
      m.loop.timer? task = some timer ∧
      timer.body = .requestExpiry request.requestId := by
  obtain ⟨task, timed, owner⟩ := timers.requestOwner_eq pending
  have owned := timers.request
  rw [owner] at owned
  obtain ⟨due, sleeping⟩ := owned.exists_timer
  have some' : (m.loop.timer? task).isSome := by
    rw [EventLoop.timer?, List.find?_isSome]
    exact ⟨_, sleeping, by simp⟩
  obtain ⟨timer, scheduled⟩ := Option.isSome_iff_exists.mp some'
  obtain ⟨member, same⟩ := EventLoop.mem_of_timer? scheduled
  obtain rfl := timers.formed.body_eq member sleeping same
  exact ⟨task, _, timed, scheduled, rfl⟩

/-- Everything but the frames and the operation speaks for waiting. -/
theorem waits_of_pending
    (fits : step.after.Fits)
    (pending : step.after.manager.request = some request)
    (observer : step.after.manager.primary ≠ some request.requester)
    (silent : newResults request.requester request.requestId step = [])
    (unsettled : ∀ op, step.before.operation? step.label = some op →
      ¬Closes request.requester request.requestId step.before.manager op) :
    Outcome request step := by
  obtain ⟨task, timer, timed, scheduled, body⟩ := exists_requestTimer
    (ConnectionManager.fits_of_reachable fits.reachable).2 pending
  exact .waits pending ⟨⟨request, task, timer, pending, rfl, rfl, timed,
    scheduled, body⟩, observer, silent, unsettled⟩

/-- An operation settles a pending request, or leaves it waiting. -/
theorem outcome_of_operates
    (fits : step.before.Fits)
    (fitsAfter : step.after.Fits)
    (performed : step.before.operation? step.label = some op)
    (operates : step.before.Operates op step.after)
    (pending : step.before.manager.request = some request)
    (observer : step.before.manager.primary ≠ some request.requester)
    (kept : ¬step.before.PromotesBehind step.label)
    (staying : request.requester ∈ step.after.manager.clients) :
    Outcome request step := by
  obtain ⟨todo, enabled, branch, head⟩ := operates.head
  have stays : op ≠ .disconnect request.requester := by
    rintro rfl
    obtain ⟨_, stays⟩ | ⟨_, _, connects⟩ := (mem_clients_iff branch).mp staying
    · exact stays rfl
    · cases connects
  have fate : ∀ {todo}, step.before.manager.Transition op step.after.manager
      todo → Fate request step.after.manager todo := fun branch =>
    fate_of_transition pending observer fits.roles enabled branch
      (fun promotes => kept ⟨op, performed, promotes⟩) stays
  have capable := supportsHandoff_persists enabled branch
    (fits.roles.requester request pending) stays
  cases fate branch with
  | waits still stillObserver =>
      refine waits_of_pending fitsAfter still stillObserver ?_ ?_
      · refine operates.newResults_eq_nil fun other branch => ?_
        cases fate branch with
        | waits _ _ silent => exact silent
        | promoted settled | released settled | refused settled =>
            rw [settled] at still
            cases still
      · rintro other same closes
        obtain rfl := Option.some.inj (performed.symm.trans same)
        rw [request_eq_none_of_closes enabled branch pending closes] at still
        cases still
  | @promoted reason rest settled primary =>
      obtain ⟨client, sends⟩ := firstSend_push staying
        step.before.ableton.state reason
      obtain ⟨c, next, sent, _⟩ := head _ _ _ rfl sends
      rw [roleOf, if_pos primary] at sent
      refine .promoted settled primary ?_ (Or.inl (tells_of_sent sent trivial))
      rw [newResults, newFrames_eq sent]
      rfl
  | released settled primary =>
      obtain ⟨c, next, sent, stands⟩ := head _ _ _ rfl rfl
      refine .promoted settled primary ?_ (Or.inr ⟨c, _, _, next, stands⟩)
      rw [newResults, newFrames_eq sent]
      rfl
  | @refused result reason rest settled stillObserver isResult =>
      have sends : step.after.manager.firstSend step.before.ableton.state
          (.sendResult request.requester (some request.requestId) result
            reason) = .ok (some ⟨⟨request.requester,
              .controlRequestResult (some request.requestId) result reason⟩,
              true, []⟩) := by
        simp [firstSend, capable]
      obtain ⟨c, next, sent, _⟩ := head _ _ _ rfl sends
      refine .refused ⟨settled, stillObserver, result, isResult, ?_⟩
      rw [newResults, newFrames_eq sent]
      simp [resultsFor]

/-- A step settles a pending request, or leaves it waiting. -/
theorem outcome_of_exec
    (fits : step.before.Fits)
    (mute : step.before.Mute)
    (taken : step.before.exec step.label = some step.after)
    (pending : step.before.manager.request = some request)
    (observer : step.before.manager.primary ≠ some request.requester)
    (kept : ¬step.before.PromotesBehind step.label)
    (staying : request.requester ∈ step.after.manager.clients) :
    Outcome request step := by
  have fitsAfter := fits.exec taken
  have executes := executes_of_exec fits mute taken
  cases performed : step.before.operation? step.label with
  | some op =>
      exact outcome_of_operates fits fitsAfter performed
        (executes.1 op performed) pending observer kept staying
  | none =>
      have idle := executes.2 performed
      refine waits_of_pending fitsAfter ?_ ?_ idle.newResults_eq_nil ?_
      · rw [idle.manager, pending]
      · rwa [idle.manager]
      · intro op same
        rw [performed] at same
        cases same

/-! ## Afterwards -/

/-- A request that a step opens was asked for by its requester, which
observes. -/
theorem request_of_opens
    (fits : step.before.Fits)
    (mute : step.before.Mute)
    (taken : step.before.exec step.label = some step.after)
    (opens : Opens requester requestId step) :
    ∃ request, step.after.manager.request = some request ∧
      request.requester = requester ∧ request.requestId = requestId ∧
      step.after.manager.primary ≠ some requester := by
  obtain ⟨fresh, request, pending, rfl, rfl⟩ := opens
  have pending : step.after.manager.request = some request := pending
  have executes := executes_of_exec fits mute taken
  refine ⟨request, pending, rfl, rfl, ?_⟩
  cases performed : step.before.operation? step.label with
  | none =>
      refine absurd ⟨request, ?_, rfl, rfl⟩ fresh
      rwa [← (executes.2 performed).manager]
  | some op =>
      obtain ⟨todo, enabled, branch, _⟩ := (executes.1 op performed).head
      rcases request_origin branch pending with before | ⟨idle, rfl, observer⟩
      · exact absurd ⟨request, before, rfl, rfl⟩ fresh
      · generalize step.after.manager = m at branch pending
        cases branch with
        | requestPends notPrimary => exact notPrimary
        | _ => simp [idle] at pending

/-- Once the request is over, nothing more is heard of it. -/
theorem silent_of_settled
    (run : Run exec current future finish)
    (fits : current.Fits)
    (mute : current.Mute)
    (settled : ∀ request, current.manager.request = some request →
      request.requestId ≠ requestId)
    (fresh : ∀ step ∈ future, ∀ ws, ¬Opens ws requestId step) :
    ∀ step ∈ future, newResults requester requestId step = [] := by
  induction future generalizing current with
  | nil => simp
  | cons step later inductionHypothesis =>
      obtain ⟨⟨rfl, taken⟩, rest⟩ := run.uncons
      have executes := executes_of_exec fits mute taken
      have silent : newResults requester requestId step = [] := by
        cases performed : step.before.operation? step.label with
        | none => exact (executes.2 performed).newResults_eq_nil
        | some op =>
            exact (executes.1 op performed).newResults_eq_nil
              fun todo branch => resultsOwed_eq_nil branch settled
      refine List.forall_mem_cons.mpr ⟨silent, ?_⟩
      rw [List.forall_mem_cons] at fresh
      refine inductionHypothesis rest (fits.exec taken) (executes.mute mute)
        ?_ fresh.2
      rintro request pending rfl
      refine fresh.1 request.requester ⟨?_, request, pending, rfl, rfl⟩
      rintro ⟨other, before, _, same⟩
      exact settled other before same

/-- What the coroutine that owes a push does when it goes on. -/
theorem tells_of_turn
    {raised : Bool}
    (taken : step.before.exec step.label = some step.after)
    (resumed : step.label = .resume c raised)
    (owes : Owes requester c step.before)
    (present : requester ∈ step.before.manager.clients)
    (primary : step.before.manager.primary = some requester) :
    Tells requester step := by
  obtain ⟨old, rest, next, stands⟩ := owes
  obtain ⟨client, sends⟩ := firstSend_push present step.before.ableton.state
    .slotEmpty
  rw [resumed] at taken
  obtain ⟨next, _, suspended⟩ := resume_eq_suspend taken
    (by simp [Phase.Unwinds]) stands (nextSend_of_head sends rest)
  have sent : step.after.sent = step.before.sent ++ [⟨c, _⟩] :=
    congrArg System.sent suspended
  rw [roleOf, if_pos primary] at sent
  exact tells_of_sent sent trivial

/-- Only a resume makes a suspended coroutine act. -/
theorem eq_resume_of_sending
    {old : WebSocket} {guarded : Bool} {rest : List Todo} {next : Next}
    (fits : s.Fits)
    (stands : s.phase? c = some (.sending old guarded rest next))
    (acts : s.actor event = some c)
    (taken : s.exec event = some after) :
    ∃ raised, event = .resume c raised := by
  cases event with
  | resume acting raised =>
      obtain rfl := Option.some.inj acts
      exact ⟨raised, rfl⟩
  | fire timer =>
      obtain rfl := Option.some.inj acts
      rw [fits.fresh] at stands
      cases stands
  | accept | receive | hangUp =>
      obtain rfl := Option.some.inj acts
      simp [exec, stands] at taken
  | _ => cases acts

/-- A requester that is owed its push is told in turn. -/
theorem told_of_owes
    (run : Run exec current later finish)
    (fits : current.Fits)
    (owes : Owes requester c current)
    (present : requester ∈ current.manager.clients)
    (staying : ∀ step ∈ later, requester ∈ step.after.manager.clients)
    (kept : ∀ step ∈ later, ¬step.before.PushesLate step.label) :
    ToldInTurn requester c later := by
  induction later generalizing current with
  | nil => exact ⟨[], [], rfl, by simp, Or.inl rfl⟩
  | cons step others inductionHypothesis =>
      obtain ⟨⟨rfl, taken⟩, rest⟩ := run.uncons
      rw [List.forall_mem_cons] at staying kept
      by_cases acts : step.before.actor step.label = some c
      · obtain ⟨old, after, next, stands⟩ := owes
        obtain ⟨raised, resumed⟩ := eq_resume_of_sending fits stands acts taken
        refine ⟨[], step :: others, rfl, by simp,
          Or.inr ⟨step, others, rfl, ?_⟩⟩
        refine tells_of_turn taken resumed ⟨old, after, next, stands⟩ present ?_
        by_contra lost
        exact kept.1 ⟨c, raised, requester, resumed,
          ⟨old, after, next, stands⟩, present, lost⟩
      · obtain ⟨old, after, next, stands⟩ := owes
        have still : Owes requester c step.after := by
          refine ⟨old, after, next, ?_⟩
          rw [(untouched_of_exec fits stands acts taken).phase, stands]
        obtain ⟨suspended, ending, rfl, owing, told⟩ := inductionHypothesis
          rest (fits.exec taken) still staying.1 staying.2 kept.2
        exact ⟨step :: suspended, ending, rfl,
          List.forall_mem_cons.mpr ⟨still, owing⟩, told⟩

/-! ## Whole runs -/

/-- A pending request whose requester observes goes on to have one outcome. -/
theorem hasOneOutcome_of_pending
    (run : Run exec current future finish)
    (fits : current.Fits)
    (mute : current.Mute)
    (pending : current.manager.request = some request)
    (observer : current.manager.primary ≠ some request.requester)
    (kept : ∀ step ∈ future, ¬step.before.PromotesBehind step.label ∧
      ¬step.before.PushesLate step.label)
    (staying : ∀ step ∈ future,
      request.requester ∈ step.after.manager.clients)
    (fresh : ∀ step ∈ future, ∀ ws, ¬Opens ws request.requestId step) :
    HasOneOutcome request.requester request.requestId future := by
  induction future generalizing current with
  | nil => exact ⟨[], [], rfl, by simp, Or.inl rfl⟩
  | cons step later inductionHypothesis =>
      obtain ⟨⟨rfl, taken⟩, rest⟩ := run.uncons
      rw [List.forall_mem_cons] at kept staying fresh
      have fitsAfter := fits.exec taken
      have muteAfter := (executes_of_exec fits mute taken).mute mute
      have silentLater : step.after.manager.request = none →
          ∀ other ∈ later, newResults request.requester request.requestId
            other = [] := by
        intro settled
        exact silent_of_settled rest fitsAfter muteAfter (by simp [settled])
          fresh.2
      cases outcome_of_exec fits mute taken pending observer kept.1.1
          staying.1 with
      | waits still waits =>
          obtain ⟨waiting, ending, rfl, allWait, outcome⟩ :=
            inductionHypothesis rest fitsAfter muteAfter still waits.observes
              kept.2 staying.2 fresh.2
          exact ⟨step :: waiting, ending, rfl,
            List.forall_mem_cons.mpr ⟨waits, allWait⟩, outcome⟩
      | promoted settled primary silent told =>
          refine ⟨[], step :: later, rfl, by simp, Or.inr ⟨step, later, rfl,
            Or.inl ⟨settled, primary, silent, ?_⟩, silentLater settled⟩⟩
          rcases told with now | ⟨c, owes⟩
          · exact Or.inl now
          · exact Or.inr ⟨c, owes, told_of_owes rest fitsAfter owes staying.1
              staying.2 fun other member => (kept.2 other member).2⟩
      | refused refuses =>
          exact ⟨[], step :: later, rfl, by simp, Or.inr ⟨step, later, rfl,
            Or.inr refuses, silentLater refuses.settled⟩⟩

/-- A primary comes to have its own request pending in one way only. -/
theorem not_primaryRequests_of_exec
    (fits : s.Fits)
    (mute : s.Mute)
    (taken : s.exec event = some after)
    (before : ¬s.manager.PrimaryRequests)
    (kept : ¬s.PromotesBehind event) :
    ¬after.manager.PrimaryRequests := by
  have executes := executes_of_exec fits mute taken
  cases performed : s.operation? event with
  | none =>
      rw [(executes.2 performed).manager]
      exact before
  | some op =>
      obtain ⟨todo, enabled, branch, _⟩ := (executes.1 op performed).head
      exact not_primaryRequests fits.roles enabled branch before
        fun promotes => kept ⟨op, performed, promotes⟩

/-- In every run of the server in which nobody is promoted behind its request
and no push comes late, every request has one outcome, and none stays pending
when its requester becomes primary. -/
theorem oneOutcome_of_timely
    (run : Run exec {} steps finish)
    (kept : ∀ step ∈ steps, ¬step.before.PromotesBehind step.label ∧
      ¬step.before.PushesLate step.label) :
    EveryRequestHasOneOutcome steps ∧
      ∀ step ∈ steps, ¬step.after.manager.PrimaryRequests := by
  constructor
  · rintro past opening future beyond requester requestId rfl opens staying
      fresh
    obtain ⟨pastRun, taken, rest⟩ := run.split
    obtain ⟨middle, futureRun, _⟩ := rest.splitAppend
    obtain ⟨fits, mute⟩ := mute_of_reachable pastRun.reachable
    obtain ⟨request, pending, rfl, rfl, observer⟩ :=
      request_of_opens fits mute taken opens
    refine hasOneOutcome_of_pending futureRun (fits.exec taken)
      ((executes_of_exec fits mute taken).mute mute) pending observer ?_
      staying fresh
    intro step member
    refine kept step (List.mem_append_right _ ?_)
    exact List.mem_cons_of_mem _ (List.mem_append_left _ member)
  · refine run.conditionalInvariant_after
      (fun s => ¬s.manager.PrimaryRequests)
      (fun s event => ¬s.PromotesBehind event) ?_ ?_
      fun step member => (kept step member).1
    · rintro ⟨request, pending, _⟩
      cases pending
    · intro current event after reachable before allowed taken
      obtain ⟨fits, mute⟩ := mute_of_reachable reachable
      exact not_primaryRequests_of_exec fits mute taken before allowed

/-- Two tablets connect, and each runs its to-do list. -/
private def twoTablets (second : QueryParams) (sends : Nat) : List Event :=
  [.accept ⟨0⟩ stageTablet "c0"] ++ resumes (.handler ⟨0⟩) 3 ++
    [.accept ⟨1⟩ second "c1"] ++ resumes (.handler ⟨1⟩) sends

private def keysTablet : QueryParams := ⟨some "2", some "keys", none⟩

/-- The second tablet asks, the primary releases control, and the second one is
told. -/
private def releasedToRequester : List Event :=
  twoTablets keysTablet 5 ++
    [.receive ⟨1⟩ (.requestControl "r1"), .receive ⟨0⟩ .releaseControl,
      .resume (.handler ⟨0⟩) false]

private def timely (step : Step System Event) : Bool :=
  !decide (∃ op ∈ step.before.operation? step.label,
    step.before.manager.PromotesRequester op) &&
  match step.label with
  | .resume c _ =>
      match step.before.phase? c with
      | some (.sending _ _ (.push requester _ :: _) _) =>
          decide (step.before.manager.primary = some requester)
      | _ => true
  | _ => true

private theorem not_late_of_timely
    (checked : timely step = true) :
    ¬step.before.PromotesBehind step.label ∧
      ¬step.before.PushesLate step.label := by
  rw [timely, Bool.and_eq_true, Bool.not_eq_true', decide_eq_false_iff_not]
    at checked
  refine ⟨checked.1, ?_⟩
  rintro ⟨c, raised, requester, resumed, ⟨old, rest, next, stands⟩, _, lost⟩
  rw [resumed] at checked
  simp only [stands, decide_eq_true_eq] at checked
  exact lost checked.2

theorem oneOutcome_of_timely_releasedToRequester :
    ∃ steps finish,
      replay exec {} releasedToRequester = some (steps, finish) ∧
      (∃ step ∈ steps, Opens ⟨1⟩ "r1" step) ∧
      finish.manager.primary = some ⟨1⟩ ∧
      EveryRequestHasOneOutcome steps := by
  have runs : (replay exec {} releasedToRequester).map (fun result =>
      decide ((∃ step ∈ result.1, Opens ⟨1⟩ "r1" step) ∧
        result.2.manager.primary = some ⟨1⟩) &&
      result.1.all timely) = some true := by
    decide +kernel
  obtain ⟨⟨steps, finish⟩, replayed, facts⟩ := Option.map_eq_some_iff.mp runs
  rw [Bool.and_eq_true, decide_eq_true_eq, List.all_eq_true] at facts
  exact ⟨steps, finish, replayed, facts.1.1, facts.1.2,
    (oneOutcome_of_timely (run_of_replay replayed) fun step member =>
      not_late_of_timely (facts.2 step member)).1⟩

/-! ## The two ways to fail -/

/-- A request whose requester is primary has missed its outcome. -/
theorem not_hasOneOutcome_of_primaryRequests
    (pending : step.after.manager.request = some request)
    (primary : step.after.manager.primary = some request.requester) :
    ¬HasOneOutcome request.requester request.requestId (step :: future) := by
  rintro ⟨waiting, rest, whole, allWait, outcome⟩
  cases waiting with
  | nil =>
      obtain rfl := whole
      rcases outcome with nothing | ⟨settling, later, whole, settled, _⟩
      · cases nothing
      · obtain ⟨rfl, rfl⟩ := List.cons.inj whole
        rcases settled with ⟨ended, _⟩ | ⟨ended, _⟩ <;> simp [ended] at pending
  | cons first others =>
      obtain ⟨rfl, _⟩ := List.cons.inj whole
      exact (allWait step List.mem_cons_self).observes primary

/-- A requester that becomes primary and is never told has missed its
outcome. -/
theorem not_hasOneOutcome_of_untold
    (primary : step.after.manager.primary = some requester)
    (untold : ∀ other ∈ step :: later, ¬Tells requester other)
    (past : ∃ other ∈ later, ∀ c, ¬Owes requester c other.after) :
    ¬HasOneOutcome requester requestId (step :: later) := by
  rintro ⟨waiting, rest, whole, allWait, outcome⟩
  cases waiting with
  | cons first others =>
      obtain ⟨rfl, _⟩ := List.cons.inj whole
      exact (allWait step List.mem_cons_self).observes primary
  | nil =>
      obtain rfl := whole
      rcases outcome with nothing | ⟨settling, others, whole, settled, _⟩
      · cases nothing
      obtain ⟨rfl, rfl⟩ := List.cons.inj whole
      rcases settled with promotes | refuses
      · rcases promotes.told with now | ⟨c, _, suspended, rest, rfl, owing,
          rfl | ⟨turn, beyond, rfl, told⟩⟩
        · exact untold step List.mem_cons_self now
        · obtain ⟨other, member, nobody⟩ := past
          rw [List.append_nil] at member
          exact nobody c (owing other member)
        · exact untold turn (by simp) told
      · exact refuses.observes primary

/-- The older socket of an install asks the newer one for control, which closes
then; twenty seconds later the request's timer fires. -/
private def reclaimedBehind : List Event :=
  twoTablets stageTablet 6 ++
    [.peerGone ⟨1⟩, .receive ⟨0⟩ (.requestControl "r0"), .hangUp ⟨1⟩,
      .wait 20, .fire 0]

/-- A second socket of the requester's install connects during the goodbye. -/
private def supersededInGoodbye : List Event :=
  twoTablets keysTablet 5 ++
    [.receive ⟨1⟩ (.requestControl "r1"), .receive ⟨0⟩ .releaseControl,
      .accept ⟨2⟩ keysTablet "c2", .resume (.handler ⟨0⟩) false]

/-- The last four steps of the first run. -/
private def showsLateResult : List (Step System Event) → Bool
  | [opening, closing, _, expiring] =>
      decide (Opens ⟨0⟩ "r0" opening ∧
        (⟨0⟩ : WebSocket) ∈ closing.after.manager.clients ∧
        closing.before.manager.request = closing.after.manager.request ∧
        (∃ request ∈ closing.after.manager.request,
          request.requestId = "r0" ∧ request.requester = ⟨0⟩ ∧
          closing.after.manager.primary = some request.requester) ∧
        Tells ⟨0⟩ closing ∧ newResults ⟨0⟩ "r0" expiring = [.expired])
  | _ => false

private theorem not_oneOutcome_reclaimedBehind :
    ∃ steps finish, replay exec {} reclaimedBehind = some (steps, finish) ∧
      ¬EveryRequestHasOneOutcome steps ∧
      (∃ step ∈ steps, step.after.manager.PrimaryRequests ∧ Tells ⟨0⟩ step) ∧
      ∃ step ∈ steps, newResults ⟨0⟩ "r0" step = [.expired] := by
  have runs : (replay exec {} reclaimedBehind).map (fun result =>
      showsLateResult (result.1.drop 12)) = some true := by
    decide +kernel
  obtain ⟨⟨steps, finish⟩, replayed, facts⟩ := Option.map_eq_some_iff.mp runs
  simp only [showsLateResult] at facts
  split at facts
  · rename_i opening closing waiting expiring last
    obtain ⟨opens, present, same, ⟨request, pending, sameId, own, primary⟩,
      tells, expired⟩ := of_decide_eq_true facts
    have whole : steps = steps.take 12 ++
        opening :: ([closing] ++ [waiting, expiring]) := by
      have split := (List.take_append_drop 12 steps).symm
      rwa [last] at split
    have among : ∀ step ∈ [closing, waiting, expiring], step ∈ steps := by
      intro step member
      rw [whole]
      exact List.mem_append_right _ (List.mem_cons_of_mem _ member)
    refine ⟨steps, finish, replayed, fun everyRequest => ?_,
      ⟨closing, among _ (by simp), ⟨request, pending, primary⟩, tells⟩,
      expiring, among _ (by simp), expired⟩
    have outcome := everyRequest _ opening [closing] _ ⟨0⟩ "r0" whole opens
      (by simpa using present) ?_
    · rw [← sameId, ← own] at outcome
      exact not_hasOneOutcome_of_primaryRequests pending primary outcome
    · rintro step member ws ⟨fresh, opened⟩
      obtain rfl := List.mem_singleton.mp member
      refine fresh ?_
      rwa [Pending, same]
  · cases facts

/-- Where a coroutine pushes a requester next. -/
private def pushesNext (requester : WebSocket) : Phase → Bool
  | .sending _ true (.push ws .slotEmpty :: _) _ => ws = requester
  | _ => false

private theorem not_owes
    (nobody : s.coroutines.entries.all fun entry =>
      !pushesNext requester entry.2)
    (c : Coroutine) :
    ¬Owes requester c s := by
  rintro ⟨old, rest, next, stands⟩
  have member := Dict.mem_entries_iff.mpr stands
  simpa [pushesNext] using List.all_eq_true.mp nobody _ member

/-- The last four steps of the second run. -/
private def showsMissedPush : List (Step System Event) → Bool
  | [opening, releasing, connecting, turn] =>
      decide (Opens ⟨1⟩ "r1" opening ∧
        releasing.after.manager.primary = some ⟨1⟩ ∧
        ∀ step ∈ [releasing, connecting, turn],
          (⟨1⟩ : WebSocket) ∈ step.after.manager.clients ∧
          step.after.manager.request = none) &&
      turn.after.coroutines.entries.all fun entry => !pushesNext ⟨1⟩ entry.2
  | _ => false

private theorem not_oneOutcome_supersededInGoodbye :
    ∃ steps finish,
      replay exec {} supersededInGoodbye = some (steps, finish) ∧
      ¬EveryRequestHasOneOutcome steps ∧
      (∃ step ∈ steps, step.after.manager.primary = some ⟨1⟩) ∧
      ∀ step ∈ steps, ¬Tells ⟨1⟩ step := by
  have runs : (replay exec {} supersededInGoodbye).map (fun result =>
      showsMissedPush (result.1.drop 10) &&
      decide (∀ step ∈ result.1, ¬Tells ⟨1⟩ step)) = some true := by
    decide +kernel
  obtain ⟨⟨steps, finish⟩, replayed, facts⟩ := Option.map_eq_some_iff.mp runs
  rw [Bool.and_eq_true, decide_eq_true_eq] at facts
  obtain ⟨facts, untold⟩ := facts
  simp only [showsMissedPush] at facts
  split at facts
  · rename_i opening releasing connecting turn last
    rw [Bool.and_eq_true, decide_eq_true_eq] at facts
    obtain ⟨⟨opens, primary, stays⟩, nobody⟩ := facts
    have whole : steps = steps.take 10 ++
        opening :: ([releasing, connecting, turn] ++ []) := by
      have split := (List.take_append_drop 10 steps).symm
      rwa [last] at split
    have among : ∀ step ∈ [releasing, connecting, turn], step ∈ steps := by
      intro step member
      rw [whole]
      refine List.mem_append_right _ (List.mem_cons_of_mem _ ?_)
      simpa using member
    refine ⟨steps, finish, replayed, fun everyRequest => ?_,
      ⟨releasing, among _ (by simp), primary⟩, untold⟩
    have outcome := everyRequest _ opening _ _ ⟨1⟩ "r1" whole opens
      (fun step member => (stays step member).1) ?_
    · exact not_hasOneOutcome_of_untold primary
        (fun step member => untold step (among step member))
        ⟨turn, by simp, not_owes nobody⟩ outcome
    · rintro step member ws ⟨_, request, pending, _⟩
      rw [(stays step member).2] at pending
      cases pending
  · cases facts

/-- In the first run the requester is made primary and told so, its request
stays pending, and a result for it arrives afterwards.  In the second one it is
made primary and never told. -/
theorem not_oneOutcome_reclaimedOrSuperseded :
    (∃ steps finish, replay exec {} reclaimedBehind = some (steps, finish) ∧
      ¬EveryRequestHasOneOutcome steps ∧
      (∃ step ∈ steps, step.after.manager.PrimaryRequests ∧ Tells ⟨0⟩ step) ∧
      ∃ step ∈ steps, newResults ⟨0⟩ "r0" step = [.expired]) ∧
    ∃ steps finish,
      replay exec {} supersededInGoodbye = some (steps, finish) ∧
      ¬EveryRequestHasOneOutcome steps ∧
      (∃ step ∈ steps, step.after.manager.primary = some ⟨1⟩) ∧
      ∀ step ∈ steps, ¬Tells ⟨1⟩ step :=
  ⟨not_oneOutcome_reclaimedBehind, not_oneOutcome_supersededInGoodbye⟩

end System
end AbletonTracks
