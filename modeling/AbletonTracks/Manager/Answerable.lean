import AbletonTracks.Manager.Consistency

/-!
# When a pending request can be answered

A pending request waits for somebody else: for the primary, or for the end of
the hold on a dropped primary's slot.  Closing the primary's socket breaks
this in two ways only.  A primary without a client id leaves the slot empty,
and a primary whose next socket is the requester's own hands it control
without looking at the request.
-/

namespace AbletonTracks

open Library

namespace ConnectionManager

variable {m after : ConnectionManager} {op : Op} {todo : List Todo}

/-- Somebody other than the requester can answer the pending request: the slot
is reserved, or a connected handoff-capable socket is primary. -/
def Answerable (m : ConnectionManager) : Prop :=
  ∀ request ∈ m.request, m.reservedFor ≠ none ∨
    ∃ ws ∈ m.primary, ws ∈ m.clients ∧ m.supportsHandoff ws = true ∧
      ws ≠ request.requester

instance (m : ConnectionManager) : Decidable m.Answerable :=
  inferInstanceAs (Decidable (∀ request ∈ m.request, _ ∨ _))

/-- The socket that would take over from `ws` is `next`: the longest connected
other socket of the same install. -/
def SiblingIs
    (m : ConnectionManager)
    (ws next : WebSocket) : Prop :=
  ∃ client ∈ m.clients.get? ws, client.clientId ≠ none ∧
    (m.clients.erase ws).findKey?
      (fun other => other.clientId = client.clientId) = some next

instance (m : ConnectionManager) (ws next : WebSocket) :
    Decidable (m.SiblingIs ws next) :=
  inferInstanceAs (Decidable (∃ client ∈ m.clients.get? ws, _ ∧ _))

/-- Somebody else's request is pending when the primary's socket closes, and
the primary carries no client id or its next socket is the requester's. -/
def Strands (m : ConnectionManager) : Op → Prop
  | .disconnect ws =>
      m.primary = some ws ∧ ∃ request ∈ m.request, request.requester ≠ ws ∧
        ((∃ client ∈ m.clients.get? ws, client.clientId = none) ∨
          m.SiblingIs ws request.requester)
  | _ => False

instance (m : ConnectionManager) : (op : Op) → Decidable (m.Strands op)
  | .disconnect ws =>
      inferInstanceAs (Decidable (m.primary = some ws ∧
        ∃ request ∈ m.request, _ ∧ (_ ∨ _)))
  | .connect .. | .setName .. | .requestControl .. | .cancelRequest ..
  | .respond .. | .grant .. | .release .. | .fire .. | .wait .. =>
      inferInstanceAs (Decidable False)

/-! ## The two directions of one step -/

theorem answerable_of_idle (idle : m.request = none) : m.Answerable := by
  intro request pending
  rw [idle] at pending
  cases pending

theorem answerable_of_reserved
    (reserved : m.reservedFor ≠ none) :
    m.Answerable :=
  fun _ _ => Or.inl reserved

/-- A handoff-capable primary other than the requester can answer. -/
theorem answerable_of_primary
    {ws : WebSocket}
    (primary : m.primary = some ws)
    (capable : m.supportsHandoff ws = true)
    (other : ∀ request, m.request = some request → request.requester ≠ ws) :
    m.Answerable := by
  intro request pending
  refine Or.inr ⟨ws, primary, mem_of_supportsHandoff capable, capable, ?_⟩
  exact (other request pending).symm

/-- Nobody new matters as long as the primary stays handoff-capable. -/
theorem Answerable.congr
    {other : ConnectionManager}
    (answerable : m.Answerable)
    (primary : other.primary = m.primary)
    (reservedFor : other.reservedFor = m.reservedFor)
    (request : ∀ pending, other.request = some pending →
      m.request = some pending)
    (capable : ∀ ws, m.primary = some ws → m.supportsHandoff ws = true →
      other.supportsHandoff ws = true) :
    other.Answerable := by
  intro pending found
  rcases answerable pending (request pending found) with
    reserved | ⟨ws, holds, _, capableBefore, different⟩
  · exact Or.inl (reservedFor ▸ reserved)
  · have stillCapable := capable ws holds capableBefore
    exact Or.inr ⟨ws, primary.trans holds,
      mem_of_supportsHandoff stillCapable, stillCapable, different⟩

/-- A socket of an install supports handoff. -/
theorem RolesFit.supportsHandoff
    (fits : m.RolesFit)
    {ws : WebSocket}
    {client : Client}
    {a : ClientId}
    (found : m.clients.get? ws = some client)
    (carries : client.clientId = some a) :
    m.supportsHandoff ws = true :=
  supportsHandoff_iff.mpr
    ⟨client, found, fits.capable ws client found (by simp [carries])⟩

/-- The requester has been connected before the socket that joins. -/
theorem RolesFit.requester_ne_of_fresh
    (fits : m.RolesFit)
    {ws : WebSocket}
    (fresh : ws ∉ m.clients)
    {request : Request}
    (pending : m.request = some request) :
    request.requester ≠ ws := by
  rintro rfl
  exact fresh (mem_of_supportsHandoff (fits.requester request pending))

/-- A new socket of an install is a primary that can answer. -/
theorem answerable_of_connected
    (fits : m.RolesFit)
    {ws : WebSocket}
    (fresh : ws ∉ m.clients)
    {params : QueryParams}
    {connectionId : String}
    {a : ClientId}
    (carries : (newClient params connectionId).clientId = some a)
    (primary : after.primary = some ws)
    (clients : after.clients = (m.join ws params connectionId).clients)
    (request : after.request = m.request) :
    after.Answerable := by
  have found : after.clients.get? ws =
      some (newClient params connectionId) := by
    rw [clients]
    exact Dict.get?_insert_self _ _ _
  refine answerable_of_primary primary ?_ ?_
  · exact supportsHandoff_iff.mpr
      ⟨_, found, newClient_capable (by simp [carries])⟩
  · intro pending found
    exact fits.requester_ne_of_fresh fresh (request ▸ found)

/-- In an empty slot nobody waits. -/
theorem Answerable.request_eq_none
    (answerable : m.Answerable)
    (empty : m.primary = none)
    (unreserved : m.reservedFor = none) :
    m.request = none := by
  by_contra pending
  obtain ⟨request, found⟩ := Option.ne_none_iff_exists'.mp pending
  rcases answerable request found with reserved | ⟨ws, holds, _⟩
  · exact reserved unreserved
  · rw [empty] at holds
    cases holds

/-- A socket that joins becomes a primary that can answer, or leaves the one
that there is. -/
theorem Answerable.connect
    {ws : WebSocket} {params : QueryParams} {connectionId : String}
    (answerable : m.Answerable)
    (fits : m.RolesFit)
    (fresh : ws ∉ m.clients)
    (branch : m.Transition (.connect ws params connectionId) after todo) :
    after.Answerable := by
  cases branch with
  | reclaims carries =>
      exact answerable_of_connected fits fresh carries rfl rfl rfl
  | supersedes carries =>
      exact answerable_of_connected fits fresh carries rfl rfl rfl
  | takesSlot empty unreserved =>
      exact answerable_of_idle (answerable.request_eq_none empty unreserved)
  | observes =>
      refine answerable.congr rfl rfl (fun _ => id) fun ws _ capable => ?_
      rw [supportsHandoff_join_of_ne]
      · exact capable
      · rintro rfl
        exact fresh (mem_of_supportsHandoff capable)

/-- A socket that leaves strands the request, or somebody is left to answer. -/
theorem Answerable.disconnect
    {ws : WebSocket}
    (answerable : m.Answerable)
    (fits : m.RolesFit)
    (kept : ¬m.Strands (.disconnect ws))
    (branch : m.Transition (.disconnect ws) after todo) :
    after.Answerable := by
  cases branch with
  | absent => exact answerable
  | leaves _ notPrimary =>
      refine answerable.congr (forget_primary m ws) (forget_reservedFor m ws)
        ?_ ?_
      · intro pending found
        rw [forget_request] at found
        exact (Option.filter_eq_some_iff.mp found).1
      · intro primary holds capable
        rw [supportsHandoff_forget_of_ne]
        · exact capable
        · rintro rfl
          exact notPrimary holds
  | @handsBack _ sibling client siblingClient a stored primary carries
      siblingFound found siblingCarries =>
      have capable := (fits.forgetPrimary ws).supportsHandoff
        (by simpa using found) siblingCarries
      refine answerable_of_primary rfl capable ?_
      rintro request pending rfl
      simp only [forget_request, Option.filter_eq_some_iff,
        decide_eq_true_eq] at pending
      refine kept ⟨primary, request, pending.1, pending.2, Or.inr ?_⟩
      refine ⟨client, stored, by simp [carries], ?_⟩
      simpa [sibling?, carries] using siblingFound
  | reserves => exact answerable_of_reserved (by simp)
  | @empties _ client stored primary anonymous =>
      refine answerable_of_idle ?_
      by_contra pending
      obtain ⟨request, found⟩ := Option.ne_none_iff_exists'.mp pending
      simp only [forget_request, Option.filter_eq_some_iff,
        decide_eq_true_eq] at found
      exact kept ⟨primary, request, found.1, found.2,
        Or.inl ⟨client, stored, anonymous⟩⟩

/-- A request becomes pending only where somebody can answer it. -/
theorem Answerable.requestControl
    {ws : WebSocket} {requestId : String}
    (answerable : m.Answerable)
    (branch : m.Transition (.requestControl ws requestId) after todo) :
    after.Answerable := by
  cases branch with
  | requestIgnored | requestRepeated | requestBusy | requestRefused =>
      exact answerable
  | requestTakesSlot _ idle => exact answerable_of_idle idle
  | requestPends notPrimary capable _ taken capablePrimary =>
      by_cases reserved : m.reservedFor = none
      · obtain ⟨primary, holds⟩ := Option.ne_none_iff_exists'.mp
          fun empty => taken ⟨empty, reserved⟩
        have answers : m.supportsHandoff primary = true := by
          simpa [primaryOutdated, holds] using capablePrimary
        refine answerable_of_primary holds answers ?_
        · intro request pending
          rw [← Option.some.inj pending]
          rintro rfl
          exact notPrimary holds
      · exact answerable_of_reserved reserved

/-- The end of a hold leaves no request pending. -/
theorem Answerable.fire
    {task : TaskId}
    (answerable : m.Answerable)
    (fits : m.RolesFit)
    (branch : m.Transition (.fire task) after todo) :
    after.Answerable := by
  cases branch with
  | unscheduled => exact answerable
  | outlived => exact answerable.congr rfl rfl (fun _ => id) fun _ _ => id
  | slotEmpties _ _ reserved waiting =>
      have empty : m.primary = none := fits.vacant (by simp [reserved])
      refine answerable_of_idle ?_
      by_contra pending
      exact waiting ⟨empty, pending⟩
  | slotGranted | requestExpires => exact answerable_of_idle rfl

/-- A step that does not strand the request leaves it answerable. -/
theorem Answerable.transition
    (answerable : m.Answerable)
    (fits : m.RolesFit)
    (enabled : m.Enabled op)
    (branch : m.Transition op after todo)
    (kept : ¬m.Strands op) :
    after.Answerable := by
  cases op with
  | connect => exact answerable.connect fits enabled branch
  | setName =>
      cases branch with
      | renames _ keeps =>
          refine answerable.congr rfl rfl (fun _ => id) fun ws _ capable => ?_
          rw [supportsHandoff_rename _ keeps]
          exact capable
  | disconnect => exact answerable.disconnect fits kept branch
  | requestControl => exact answerable.requestControl branch
  | cancelRequest =>
      cases branch with
      | cancelIgnored => exact answerable
      | withdraws => exact answerable_of_idle rfl
  | respond =>
      cases branch with
      | respondIgnored | respondStale => exact answerable
      | accepts | denies => exact answerable_of_idle rfl
  | grant =>
      cases branch with
      | grantIgnored => exact answerable
      | grants => exact answerable_of_idle rfl
  | release => cases branch <;> exact answerable_of_idle rfl
  | fire => exact answerable.fire fits branch
  | wait =>
      cases branch
      exact answerable.congr rfl rfl (fun _ => id) fun _ _ => id

/-- A step that strands the request leaves it unanswerable. -/
theorem Strands.not_answerable
    (fits : m.RolesFit)
    (strands : m.Strands op)
    (branch : m.Transition op after todo) :
    ¬after.Answerable := by
  cases op with
  | disconnect ws =>
      obtain ⟨primary, request, pending, other, cause⟩ := strands
      have unreserved := fits.reservedFor_eq_none primary
      have kept : (m.forget ws).request = some request := by
        rw [forget_request, Option.filter_eq_some_iff]
        exact ⟨pending, by simpa using other⟩
      intro answerable
      cases branch with
      | absent missing =>
          have present := fits.connected ws primary
          exact Dict.get?_eq_none_iff.mp missing present
      | leaves _ notPrimary => exact notPrimary primary
      | @handsBack _ sibling client _ a stored _ carries siblingFound =>
          rcases cause with ⟨anonymous, found, missing⟩ |
            ⟨owner, found, _, next⟩
          · obtain rfl := Option.some.inj (stored.symm.trans found)
            rw [carries] at missing
            cases missing
          · obtain rfl := Option.some.inj (stored.symm.trans found)
            have same : request.requester = sibling := by
              have both := siblingFound
              simp only [sibling?, forget_clients] at both
              simp only [carries, ne_eq, reduceCtorEq, not_false_eq_true,
                true_and] at both next
              exact Option.some.inj (next.symm.trans both)
            rcases answerable request kept with
              reserved | ⟨holder, holds, _, _, different⟩
            · exact reserved (by simpa using unreserved)
            · exact different ((Option.some.inj holds).symm.trans same.symm)
      | @reserves _ client a stored _ carries nobody =>
          rcases cause with ⟨anonymous, found, missing⟩ |
            ⟨owner, found, _, next⟩
          · obtain rfl := Option.some.inj (stored.symm.trans found)
            rw [carries] at missing
            cases missing
          · obtain rfl := Option.some.inj (stored.symm.trans found)
            obtain ⟨holder, holderFound, same⟩ := Dict.get?_of_findKey? next
            refine nobody _ holder holderFound ?_
            rw [← carries]
            exact of_decide_eq_true same
      | empties =>
          rcases answerable request kept with
            reserved | ⟨holder, holds, _⟩
          · exact reserved (by simpa using unreserved)
          · cases holds
  | _ => exact strands.elim

/-! ## Whole runs -/

/-- A pending request can be answered in every state of a run exactly when no
step of the run strands it. -/
theorem answerable_iff_not_strands
    {steps : List (Step ConnectionManager Op)}
    (run : Run exec {} steps m) :
    (∀ step ∈ steps, step.after.Answerable) ↔
      ∀ step ∈ steps, ¬step.before.Strands step.label := by
  constructor
  · intro answerable step member strands
    obtain ⟨past, future, rfl⟩ := List.append_of_mem member
    obtain ⟨pastRun, taken, _⟩ := run.split
    obtain ⟨_, todo, _, branch⟩ := transition_of_exec taken
    have roles := (fits_of_reachable pastRun.reachable).1
    exact strands.not_answerable roles branch (answerable step member)
  · refine run.conditionalInvariant_after Answerable
      (fun current label => ¬current.Strands label)
      (answerable_of_idle rfl) ?_
    intro current label after reachable answerable kept taken
    obtain ⟨enabled, todo, _, branch⟩ := transition_of_exec taken
    exact answerable.transition (fits_of_reachable reachable).1 enabled
      branch kept

/-- A request survives the drop and the return of the primary it was made to,
and is then accepted. -/
def acceptedAfterReturn : List Op :=
  [.connect ⟨0⟩ ⟨some "2", some "stage", none⟩ "c0",
    .connect ⟨1⟩ ⟨some "2", some "booth", none⟩ "c1",
    .requestControl ⟨1⟩ "r0",
    .disconnect ⟨0⟩,
    .connect ⟨2⟩ ⟨some "2", some "stage", none⟩ "c2",
    .respond ⟨2⟩ "r0" true]

theorem answerable_iff_not_strands_acceptedAfterReturn :
    ∃ steps m, replay exec {} acceptedAfterReturn = some (steps, m) ∧
      m.primary = some ⟨1⟩ ∧ ∀ step ∈ steps, step.after.Answerable := by
  have runs : (replay exec {} acceptedAfterReturn).map (fun result =>
      decide (result.2.primary = some ⟨1⟩) &&
        result.1.all fun step =>
          !decide (step.before.Strands step.label)) = some true := by
    decide +kernel
  obtain ⟨⟨steps, m⟩, replayed, both⟩ := Option.map_eq_some_iff.mp runs
  rw [Bool.and_eq_true, List.all_eq_true] at both
  refine ⟨steps, m, replayed, of_decide_eq_true both.1, ?_⟩
  refine (answerable_iff_not_strands (run_of_replay replayed)).mpr ?_
  intro step member
  simpa using both.2 step member

/-- A protocol-2 primary without a client id drops while another device's
request is pending. -/
private def anonymousPrimaryDrops : List Op :=
  [.connect ⟨0⟩ ⟨some "2", none, none⟩ "c0",
    .connect ⟨1⟩ ⟨some "2", some "booth", none⟩ "c1",
    .requestControl ⟨1⟩ "r0",
    .disconnect ⟨0⟩]

/-- The older of two sockets of one install asks the newer one for control, and
then the newer one drops. -/
private def siblingTakesBack : List Op :=
  [.connect ⟨0⟩ ⟨some "2", some "stage", none⟩ "c0",
    .connect ⟨1⟩ ⟨some "2", some "stage", none⟩ "c1",
    .requestControl ⟨0⟩ "r0",
    .disconnect ⟨1⟩]

/-- Nobody can answer the request that such a drop leaves behind. -/
theorem not_answerable_of_drop :
    (∃ m, execAll exec {} anonymousPrimaryDrops = some m ∧
      m.primary = none ∧ m.reservedFor = none ∧ ¬m.Answerable) ∧
    (∃ m, execAll exec {} siblingTakesBack = some m ∧
      m.primary = some ⟨0⟩ ∧ ¬m.Answerable) := by
  have first : (execAll exec {} anonymousPrimaryDrops).map (fun m =>
      decide (m.primary = none ∧ m.reservedFor = none ∧ ¬m.Answerable)) =
        some true := by
    decide +kernel
  have second : (execAll exec {} siblingTakesBack).map (fun m =>
      decide (m.primary = some ⟨0⟩ ∧ ¬m.Answerable)) = some true := by
    decide +kernel
  obtain ⟨m, executed, facts⟩ := Option.map_eq_some_iff.mp first
  obtain ⟨other, otherExecuted, otherFacts⟩ :=
    Option.map_eq_some_iff.mp second
  exact ⟨⟨m, executed, of_decide_eq_true facts⟩,
    ⟨other, otherExecuted, of_decide_eq_true otherFacts⟩⟩

end ConnectionManager
end AbletonTracks
