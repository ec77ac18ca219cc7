import AbletonTracks.Manager.Answerable
import AbletonTracks.Manager.Sending

/-!
# What a step does to a pending request

A pending request waits until one operation settles it: either that operation
makes the requester primary and the first thing it has to send is the new role,
behind a goodbye to the old primary where control was released, or the first
thing is one result.  `fate_of_transition` says so.  The exception is the
primary whose next socket is the requester's own: closing it promotes the
requester behind the back of its request.
-/

namespace AbletonTracks

open Library

namespace ConnectionManager

variable {m after : ConnectionManager} {op : Op} {todo : List Todo}
  {ws : WebSocket} {requestId : String} {request : Request}

/-! ## Where pending requests and results come from -/

/-- A pending request was pending before, or this step opened it. -/
theorem request_origin
    (branch : m.Transition op after todo)
    (pending : after.request = some request) :
    m.request = some request ∨
      (m.request = none ∧
        op = .requestControl request.requester request.requestId ∧
        m.primary ≠ some request.requester) := by
  cases branch with
  | leaves | handsBack | reserves | empties =>
      simp only [startReservation_request, forget_request,
        Option.filter_eq_some_iff] at pending
      exact Or.inl pending.1
  | requestPends notPrimary _ idle =>
      obtain rfl := Option.some.inj pending
      exact Or.inr ⟨idle, rfl, notPrimary⟩
  | withdraws | accepts | denies | grants | releases | releasesTo
  | slotGranted | requestExpires => cases pending
  | _ => exact Or.inl pending

/-- Only the pending request's own result carries its id. -/
theorem resultsOwed_eq_nil
    (branch : m.Transition op after todo)
    (other : ∀ request, m.request = some request →
      request.requestId ≠ requestId) :
    resultsOwed ws requestId todo = [] := by
  have single : ∀ (request : Request) (result : RequestResult)
      (reason : ResultReason), m.request = some request →
      resultsOwed ws requestId
        [.sendResult request.requester (some request.requestId) result reason,
          .broadcastHandoff] = [] := by
    intro request result reason pending
    simp [resultsOwed, other request pending]
  cases branch with
  | withdraws pending => exact single _ _ _ pending
  | denies _ pending => exact single _ _ _ pending
  | requestExpires _ _ pending => exact single _ _ _ pending
  | @grants ws target =>
      rw [resultsOwed_append, resultsOwed_announce, List.append_nil,
        resultsOwed, List.filterMap_eq_nil_iff]
      intro entry member
      obtain ⟨request, pending, rfl⟩ := List.mem_map.mp member
      have stored := Option.mem_toList.mp (List.mem_of_mem_filter pending)
      simp [other request stored]
  | releases | releasesTo =>
      rw [resultsOwed_append, resultsOwed_announce, List.append_nil,
        resultsOwed, List.filterMap_eq_nil_iff]
      intro entry member
      obtain ⟨primary, _, rfl⟩ := List.mem_map.mp member
      rfl
  | absent | leaves | handsBack | reserves | empties | requestTakesSlot
  | accepts | slotGranted => exact resultsOwed_announce _
  | reclaims | supersedes | takesSlot | observes =>
      exact resultsOwed_announce _
  | _ => rfl

/-! ## One step of a pending request -/

/-- Closing the primary's socket would make the requester itself primary. -/
def PromotesRequester (m : ConnectionManager) : Op → Prop
  | .disconnect ws =>
      m.primary = some ws ∧
        ∃ request ∈ m.request, m.SiblingIs ws request.requester
  | _ => False

instance (m : ConnectionManager) : (op : Op) → Decidable (m.PromotesRequester op)
  | .disconnect ws =>
      inferInstanceAs (Decidable (m.primary = some ws ∧
        ∃ request ∈ m.request, m.SiblingIs ws request.requester))
  | .connect .. | .setName .. | .requestControl .. | .cancelRequest ..
  | .respond .. | .grant .. | .release .. | .fire .. | .wait .. =>
      inferInstanceAs (Decidable False)

/-- What an operation does to a pending request whose requester stays: it keeps
waiting, or control goes to the requester, whose push comes first or behind the
goodbye to the primary that released it, or the requester is first of all sent
its result and does not get control. -/
inductive Fate (request : Request) (after : ConnectionManager) :
    List Todo → Prop
  | waits {todo : List Todo} :
      after.request = some request →
      after.primary ≠ some request.requester →
      resultsOwed request.requester request.requestId todo = [] →
      Fate request after todo
  | promoted {reason : RoleReason} {rest : List Todo} :
      after.request = none →
      after.primary = some request.requester →
      Fate request after (.push request.requester reason :: rest)
  | released {old : WebSocket} {rest : List Todo} :
      after.request = none →
      after.primary = some request.requester →
      Fate request after
        (.sendReleased old :: .push request.requester .slotEmpty :: rest)
  | refused
      {result : RequestResult} {reason : ResultReason} {rest : List Todo} :
      after.request = none →
      after.primary ≠ some request.requester →
      result ∈ [.denied, .expired, .cancelled] →
      Fate request after
        (.sendResult request.requester (some request.requestId) result reason ::
          rest)

section Fates

variable (pending : m.request = some request)
  (observer : m.primary ≠ some request.requester)

include pending

/-- Whatever request is found pending is this one. -/
private theorem eq_pending
    {other : Request}
    (found : m.request = some other) :
    other = request :=
  Option.some.inj (found.symm.trans pending)

include observer

/-- The requester is not the socket that joins. -/
theorem fate_of_connect
    {params : QueryParams} {connectionId : String}
    (fits : m.RolesFit)
    (fresh : ws ∉ m.clients)
    (branch : m.Transition (.connect ws params connectionId) after todo) :
    Fate request after todo := by
  have joins : some ws ≠ some request.requester := by
    intro same
    exact fits.requester_ne_of_fresh fresh pending (Option.some.inj same).symm
  cases branch with
  | reclaims | supersedes | takesSlot =>
      exact .waits pending joins (resultsOwed_announce _)
  | observes => exact .waits pending observer (resultsOwed_announce _)

/-- The requester is not the socket that leaves, nor the one that takes
over. -/
theorem fate_of_disconnect
    (kept : ¬m.PromotesRequester (.disconnect ws))
    (staying : ws ≠ request.requester)
    (branch : m.Transition (.disconnect ws) after todo) :
    Fate request after todo := by
  have stays : (m.forget ws).request = some request := by
    rw [forget_request, Option.filter_eq_some_iff]
    exact ⟨pending, decide_eq_true (Ne.symm staying)⟩
  cases branch with
  | absent => exact .waits pending observer (resultsOwed_announce _)
  | leaves =>
      exact .waits stays (by simpa using observer) (resultsOwed_announce _)
  | @handsBack _ sibling client _ a stored primary carries siblingFound =>
      refine .waits stays ?_ (resultsOwed_announce _)
      intro same
      refine kept ⟨primary, request, pending, client, stored, ?_, ?_⟩
      · simp [carries]
      · rw [← Option.some.inj same]
        simpa [sibling?, carries] using siblingFound
  | reserves | empties =>
      exact .waits stays (by simp) (resultsOwed_announce _)

/-- Another request does not get past the pending one. -/
theorem fate_of_requestControl
    (branch : m.Transition (.requestControl ws requestId) after todo) :
    Fate request after todo := by
  cases branch with
  | requestIgnored | requestRepeated | requestBusy =>
      exact .waits pending observer rfl
  | requestTakesSlot _ idle | requestRefused idle | requestPends _ _ idle =>
      rw [pending] at idle
      cases idle

theorem fate_of_cancelRequest
    (branch : m.Transition (.cancelRequest ws) after todo) :
    Fate request after todo := by
  cases branch with
  | cancelIgnored => exact .waits pending observer rfl
  | withdraws found =>
      obtain rfl := eq_pending pending found
      exact .refused rfl observer (by simp)

theorem fate_of_respond
    {accept : Bool}
    (branch : m.Transition (.respond ws requestId accept) after todo) :
    Fate request after todo := by
  cases branch with
  | respondIgnored | respondStale => exact .waits pending observer rfl
  | accepts _ found =>
      obtain rfl := eq_pending pending found
      exact .promoted rfl rfl
  | denies _ found =>
      obtain rfl := eq_pending pending found
      exact .refused rfl observer (by simp)

/-- A grant promotes the requester, or passes it over. -/
theorem fate_of_grant
    {connectionId : String}
    (branch : m.Transition (.grant ws connectionId) after todo) :
    Fate request after todo := by
  cases branch with
  | grantIgnored => exact .waits pending observer rfl
  | @grants _ target =>
      by_cases same : request.requester = target
      · subst same
        have nobody : m.passedOver request.requester = [] := by
          simp [passedOver, pending]
        rw [nobody]
        exact .promoted rfl rfl
      · have passed : m.passedOver target =
            [.sendResult request.requester (some request.requestId) .cancelled
              .controlChangedHands] := by
          simp [passedOver, pending, same]
        rw [passed]
        refine .refused rfl ?_ (by simp)
        intro holds
        exact same (Option.some.inj holds).symm

/-- The primary that releases control says goodbye first. -/
theorem fate_of_release
    (primary : m.primary = some ws)
    (branch : m.Transition (.release ws) after todo) :
    Fate request after todo := by
  cases branch with
  | releases idle =>
      rw [pending] at idle
      cases idle
  | releasesTo found =>
      obtain rfl := eq_pending pending found
      rw [primary]
      exact .released rfl rfl

theorem fate_of_fire
    {task : TaskId}
    (branch : m.Transition (.fire task) after todo) :
    Fate request after todo := by
  cases branch with
  | unscheduled | outlived | slotEmpties =>
      exact .waits pending observer rfl
  | slotGranted _ _ _ _ found =>
      obtain rfl := eq_pending pending found
      exact .promoted rfl rfl
  | requestExpires _ _ found =>
      obtain rfl := eq_pending pending found
      exact .refused rfl observer (by simp)

/-- One operation settles a pending request, or leaves it waiting. -/
theorem fate_of_transition
    (fits : m.RolesFit)
    (enabled : m.Enabled op)
    (branch : m.Transition op after todo)
    (kept : ¬m.PromotesRequester op)
    (staying : op ≠ .disconnect request.requester) :
    Fate request after todo := by
  cases op with
  | connect => exact fate_of_connect pending observer fits enabled branch
  | setName =>
      cases branch
      exact .waits pending observer rfl
  | disconnect ws =>
      refine fate_of_disconnect pending observer kept ?_ branch
      rintro rfl
      exact staying rfl
  | requestControl => exact fate_of_requestControl pending observer branch
  | cancelRequest => exact fate_of_cancelRequest pending observer branch
  | respond => exact fate_of_respond pending observer branch
  | grant => exact fate_of_grant pending observer branch
  | release => exact fate_of_release pending observer enabled branch
  | fire => exact fate_of_fire pending observer branch
  | wait =>
      cases branch
      exact .waits pending observer rfl

end Fates

/-- A handoff-capable socket stays one until it disconnects. -/
theorem supportsHandoff_persists
    (enabled : m.Enabled op)
    (branch : m.Transition op after todo)
    (capable : m.supportsHandoff ws = true)
    (staying : op ≠ .disconnect ws) :
    after.supportsHandoff ws = true := by
  obtain ⟨client, found, modern⟩ := supportsHandoff_iff.mp capable
  obtain ⟨later, stored, _, protocol⟩ :=
    client_persists enabled branch found staying
  exact supportsHandoff_iff.mpr ⟨later, stored, protocol ▸ modern⟩

/-! ## A requester that is primary -/

/-- The primary has a request of its own pending. -/
def PrimaryRequests (m : ConnectionManager) : Prop :=
  ∃ request ∈ m.request, m.primary = some request.requester

instance (m : ConnectionManager) : Decidable m.PrimaryRequests :=
  inferInstanceAs (Decidable (∃ request ∈ m.request, _ = _))

/-- A primary comes to have its own request pending in one way only. -/
theorem not_primaryRequests
    (fits : m.RolesFit)
    (enabled : m.Enabled op)
    (branch : m.Transition op after todo)
    (before : ¬m.PrimaryRequests)
    (kept : ¬m.PromotesRequester op) :
    ¬after.PrimaryRequests := by
  rintro ⟨request, pending, primary⟩
  by_cases leaving : op = .disconnect request.requester
  · -- A departing requester takes its request along.
    subst leaving
    cases branch with
    | absent missing =>
        have capable := fits.requester request pending
        exact Dict.get?_eq_none_iff.mp missing
          (mem_of_supportsHandoff capable)
    | leaves | handsBack | reserves | empties =>
        simp [forget_request, Option.filter_eq_some_iff] at pending
  · rcases request_origin branch pending with stillPending |
      ⟨idle, opened, notPrimary⟩
    · have observer : m.primary ≠ some request.requester := fun holds =>
        before ⟨request, stillPending, holds⟩
      cases fate_of_transition stillPending observer fits enabled branch kept
          leaving with
      | waits _ stillObserver => exact stillObserver primary
      | promoted settled | released settled | refused settled =>
          simp [settled] at pending
    · subst opened
      cases branch with
      | requestPends => exact notPrimary primary
      | _ => simp [idle] at pending

end ConnectionManager
end AbletonTracks
