import AbletonTracks.Manager.Outcome

/-!
# No observer is promoted silently

The right to become primary depends on the history.  `IsOpen past q r` says
that `q` made the request `r` and that nothing has ended it since; the pending
request is always open in this sense, so whoever is promoted through it has
asked for control and is still waiting.
-/

namespace AbletonTracks

open Library

namespace ConnectionManager

variable {m after current finish : ConnectionManager} {op : Op}
  {todo : List Todo} {q ws : WebSocket} {requestId : String}
  {past future : List (Step ConnectionManager Op)}
  {step : Step ConnectionManager Op}

/-! ## The ledger of requests -/

/-- The step in which a request becomes pending. -/
def Opens
    (requester : WebSocket)
    (requestId : String)
    (step : Step ConnectionManager Op) : Prop :=
  step.label = .requestControl requester requestId ∧
    step.before.request = none ∧ step.after.request ≠ none

instance
    (requester : WebSocket)
    (requestId : String)
    (step : Step ConnectionManager Op) :
    Decidable (Opens requester requestId step) :=
  inferInstanceAs (Decidable (_ ∧ _ ∧ _))

/-- The operation ends the request `requestId` of `requester`: it is cancelled,
its requester leaves, the primary answers it, its time is over, or control
changes hands. -/
def Closes
    (requester : WebSocket)
    (requestId : String)
    (m : ConnectionManager) : Op → Prop
  | .cancelRequest ws => ws = requester
  | .disconnect ws => ws = requester
  | .respond ws id _ => m.primary = some ws ∧ id = requestId
  | .grant ws connectionId =>
      m.primary = some ws ∧ ∃ target ∈ m.named? connectionId,
        target ≠ ws ∧ m.supportsHandoff target = true
  | .release ws => m.primary = some ws
  | .fire task =>
      ∃ timer ∈ m.loop.timer? task,
        timer.body = .requestExpiry requestId ∨
          (m.primary = none ∧
            ∃ a ∈ m.reservedFor, timer.body = .reservationExpiry a)
  | _ => False

/-- `requester` made the request `requestId`, and nothing has ended it. -/
def IsOpen
    (past : List (Step ConnectionManager Op))
    (requester : WebSocket)
    (requestId : String) : Prop :=
  ∃ earlier opening later, past = earlier ++ opening :: later ∧
    Opens requester requestId opening ∧
    ∀ step ∈ later, ¬Closes requester requestId step.before step.label

/-- `requester` made the request `requestId`, and something has ended it. -/
def IsEnded
    (past : List (Step ConnectionManager Op))
    (requester : WebSocket)
    (requestId : String) : Prop :=
  ∃ earlier opening middle closing later,
    past = earlier ++ opening :: (middle ++ closing :: later) ∧
    Opens requester requestId opening ∧
    Closes requester requestId closing.before closing.label

/-- No request id is drawn twice. -/
def UniqueIds (past : List (Step ConnectionManager Op)) : Prop :=
  ∀ earlier opening later requester requestId,
    past = earlier ++ opening :: later →
    Opens requester requestId opening →
    ∀ step ∈ later, ∀ ws, ¬Opens ws requestId step

/-- Under unique ids a request that was ended is not open again. -/
theorem not_isOpen_of_isEnded
    (unique : UniqueIds past)
    (ended : IsEnded past ws requestId) :
    ¬IsOpen past q requestId := by
  rintro ⟨earlier, opening, later, whole, opens, kept⟩
  obtain ⟨before, first, middle, closing, rest, rfl, firstOpens, closes⟩ :=
    ended
  rcases List.append_eq_append_iff.mp whole with
    ⟨between, rfl, split⟩ | ⟨between, rfl, split⟩
  · cases between with
    | nil =>
        obtain ⟨rfl, rfl⟩ := List.cons.inj split
        obtain ⟨rfl, _⟩ := Op.requestControl.inj
          (firstOpens.1.symm.trans opens.1)
        exact kept closing (by simp) closes
    | cons head tail =>
        obtain ⟨rfl, tailEqual⟩ := List.cons.inj split
        refine unique _ _ _ _ _ rfl firstOpens opening ?_ q opens
        simp [tailEqual]
  · cases between with
    | nil =>
        obtain ⟨rfl, rfl⟩ := List.cons.inj split
        obtain ⟨rfl, _⟩ := Op.requestControl.inj
          (firstOpens.1.symm.trans opens.1)
        exact kept closing (by simp) closes
    | cons head tail =>
        obtain ⟨rfl, rfl⟩ := List.cons.inj split
        refine unique earlier opening (tail ++ first ::
          (middle ++ closing :: rest)) _ _ (by simp) opens first ?_ ws
          firstOpens
        simp

/-- An operation that ends the pending request leaves none. -/
theorem request_eq_none_of_closes
    {request : Request}
    (enabled : m.Enabled op)
    (branch : m.Transition op after todo)
    (pending : m.request = some request)
    (closes : Closes request.requester request.requestId m op) :
    after.request = none := by
  cases branch with
  | withdraws | accepts | denies | grants | releases | releasesTo
  | slotGranted | requestExpires => rfl
  | absent missing =>
      exact absurd enabled (Dict.get?_eq_none_iff.mp missing)
  | leaves | handsBack | reserves | empties =>
      obtain rfl := closes
      simp [forget_request, pending, Option.filter]
  | cancelIgnored other =>
      exact absurd closes.symm (other request pending)
  | respondIgnored notPrimary => exact absurd closes.1 notPrimary
  | respondStale _ other => exact absurd closes.2.symm (other request pending)
  | grantIgnored improper =>
      obtain ⟨primary, target, named, different, capable⟩ := closes
      rcases improper primary target named with same | incapable
      · exact absurd same different
      · rw [capable] at incapable
        cases incapable
  | unscheduled missing =>
      obtain ⟨timer, scheduled, _⟩ := closes
      rw [missing] at scheduled
      cases scheduled
  | outlived scheduled noReservation noRequest =>
      obtain ⟨timer, found, body | ⟨_, a, reserved, body⟩⟩ := closes
      · obtain rfl := Option.some.inj (scheduled.symm.trans found)
        exact absurd rfl (noRequest _ request body pending)
      · obtain rfl := Option.some.inj (scheduled.symm.trans found)
        exact absurd reserved (noReservation a body)
  | slotEmpties scheduled body _ waiting =>
      obtain ⟨timer, found, otherBody | ⟨primary, _⟩⟩ := closes
      · obtain rfl := Option.some.inj (scheduled.symm.trans found)
        rw [body] at otherBody
        cases otherBody
      · exact absurd ⟨primary, by simp [pending]⟩ waiting
  | _ => exact closes.elim

/-- In every run, the pending request is open. -/
theorem isOpen_of_pending
    (run : Run exec {} past current) :
    ∀ request, current.request = some request →
      IsOpen past request.requester request.requestId := by
  refine run.historyInvariant (fun past current =>
    ∀ request, current.request = some request →
      IsOpen past request.requester request.requestId) (by simp) ?_
  intro past current op after _ wereOpen taken request pending
  obtain ⟨enabled, todo, _, branch⟩ := transition_of_exec taken
  rcases request_origin branch pending with before | ⟨idle, opened, _⟩
  · obtain ⟨earlier, opening, later, rfl, opens, kept⟩ :=
      wereOpen request before
    refine ⟨earlier, opening, later ++ [⟨current, op, after⟩], by simp,
      opens, ?_⟩
    intro step member
    rcases List.mem_append.mp member with old | new
    · exact kept step old
    · obtain rfl := List.mem_singleton.mp new
      intro closes
      have settled := request_eq_none_of_closes enabled branch before closes
      rw [settled] at pending
      cases pending
  · refine ⟨past, ⟨current, op, after⟩, [], rfl, ⟨opened, idle, ?_⟩, by simp⟩
    simp [pending]

/-! ## Promotions -/

/-- The ways in which a step may make `q` primary after the steps `past`. -/
inductive Entitled
    (past : List (Step ConnectionManager Op))
    (step : Step ConnectionManager Op)
    (q : WebSocket) : Prop
  | connecting (params : QueryParams) (connectionId : String) :
      step.label = .connect q params connectionId →
      Entitled past step q
  /-- The primary named its connection id in `grant_control`. -/
  | granted (ws : WebSocket) (connectionId : String) (client : Client) :
      step.label = .grant ws connectionId →
      step.before.primary = some ws →
      step.before.clients.get? q = some client →
      client.connectionId = connectionId →
      handoffProtocol ≤ client.protocol →
      Entitled past step q
  /-- The primary accepted, by its id, an open request of its own. -/
  | accepted (ws : WebSocket) (requestId : String) :
      step.label = .respond ws requestId true →
      step.before.primary = some ws →
      step.before.supportsHandoff q = true →
      IsOpen past q requestId →
      Entitled past step q
  /-- It asks for control of a slot neither held nor reserved. -/
  | slotEmpty (requestId : String) :
      step.label = .requestControl q requestId →
      step.before.supportsHandoff q = true →
      step.before.primary = none →
      step.before.reservedFor = none →
      Entitled past step q
  /-- Its own request is open when the primary releases control. -/
  | released (ws : WebSocket) (requestId : String) :
      step.label = .release ws →
      step.before.primary = some ws →
      IsOpen past q requestId →
      Entitled past step q
  /-- Its own request is open when the reservation runs out. -/
  | lapsed (task : TaskId) (timer : Timer) (a : ClientId)
      (requestId : String) :
      step.label = .fire task →
      step.before.loop.timer? task = some timer →
      timer.body = .reservationExpiry a →
      step.before.reservedFor = some a →
      IsOpen past q requestId →
      Entitled past step q
  /-- It is of the install of the primary whose socket closes. -/
  | sibling (ws : WebSocket) (client own : Client) (a : ClientId) :
      step.label = .disconnect ws →
      step.before.primary = some ws →
      step.before.clients.get? ws = some client →
      client.clientId = some a →
      step.before.clients.get? q = some own →
      own.clientId = some a →
      Entitled past step q

/-- Whoever a step makes primary is entitled to it. -/
theorem entitled_of_promoted
    (pastRun : Run exec {} past step.before)
    (taken : step.before.exec step.label = some step.after)
    (promoted : step.after.primary = some q)
    (observer : step.before.primary ≠ some q) :
    Entitled past step q := by
  obtain ⟨before, op, result⟩ := step
  have roles := (fits_of_reachable pastRun.reachable).1
  have opened := isOpen_of_pending pastRun
  obtain ⟨enabled, todo, _, branch⟩ := transition_of_exec taken
  simp only at promoted observer roles opened enabled branch
  cases branch with
  | reclaims | supersedes | takesSlot =>
      obtain rfl := Option.some.inj promoted
      exact .connecting _ _ rfl
  | leaves =>
      rw [forget_primary] at promoted
      exact absurd promoted observer
  | handsBack stored primary carries _ siblingFound siblingCarries =>
      obtain rfl := Option.some.inj promoted
      rw [Dict.get?_erase] at siblingFound
      split at siblingFound
      · cases siblingFound
      · exact .sibling _ _ _ _ rfl primary stored carries siblingFound
          siblingCarries
  | reserves | empties | releases => cases promoted
  | requestTakesSlot capable _ empty unreserved =>
      obtain rfl := Option.some.inj promoted
      exact .slotEmpty _ rfl capable empty unreserved
  | accepts primary pending =>
      obtain rfl := Option.some.inj promoted
      exact .accepted _ _ rfl primary (roles.requester _ pending)
        (opened _ pending)
  | grants primary _ _ found named capable =>
      obtain rfl := Option.some.inj promoted
      exact .granted _ _ _ rfl primary found named capable
  | releasesTo pending =>
      obtain rfl := Option.some.inj promoted
      exact .released _ _ rfl enabled (opened _ pending)
  | slotGranted scheduled body reserved _ pending =>
      obtain rfl := Option.some.inj promoted
      exact .lapsed _ _ _ _ rfl scheduled body reserved (opened _ pending)
  | _ => exact absurd promoted observer

/-- Except for a socket that connects to an empty, unreserved slot, whoever a
step makes primary supports handoff. -/
theorem capable_of_promoted
    (roles : m.RolesFit)
    (branch : m.Transition op after todo)
    (promoted : after.primary = some q)
    (observer : m.primary ≠ some q) :
    after.supportsHandoff q = true ∨
      ((∃ params connectionId, op = .connect q params connectionId) ∧
        m.primary = none ∧ m.reservedFor = none) := by
  have joined : ∀ {params connectionId} {a : ClientId},
      (newClient params connectionId).clientId = some a →
      (m.join q params connectionId).supportsHandoff q = true := by
    intro params connectionId a carries
    refine supportsHandoff_iff.mpr
      ⟨_, Dict.get?_insert_self _ _ _, newClient_capable ?_⟩
    simp [carries]
  cases branch with
  | reclaims carries | supersedes carries =>
      obtain rfl := Option.some.inj promoted
      exact Or.inl (joined carries)
  | takesSlot empty unreserved =>
      obtain rfl := Option.some.inj promoted
      exact Or.inr ⟨⟨_, _, rfl⟩, empty, unreserved⟩
  | leaves =>
      rw [forget_primary] at promoted
      exact absurd promoted observer
  | @handsBack ws _ _ _ _ _ _ _ _ siblingFound siblingCarries =>
      obtain rfl := Option.some.inj promoted
      exact Or.inl ((roles.forgetPrimary ws).supportsHandoff
        (by simpa using siblingFound) siblingCarries)
  | reserves | empties | releases => cases promoted
  | requestTakesSlot capable =>
      obtain rfl := Option.some.inj promoted
      exact Or.inl capable
  | accepts _ pending | releasesTo pending | slotGranted _ _ _ _ pending =>
      obtain rfl := Option.some.inj promoted
      exact Or.inl (roles.requester _ pending)
  | grants _ _ _ found _ capable =>
      obtain rfl := Option.some.inj promoted
      exact Or.inl (supportsHandoff_iff.mpr ⟨_, found, capable⟩)
  | _ => exact absurd promoted observer

/-- An answer that does not name the pending request moves nothing. -/
theorem primary_eq_of_stale
    {accept : Bool}
    (branch : m.Transition (.respond ws requestId accept) after todo)
    (stale : ∀ request, m.request = some request →
      request.requestId ≠ requestId) :
    after.primary = m.primary := by
  cases branch with
  | accepts _ pending | denies _ pending =>
      exact absurd rfl (stale _ pending)
  | respondIgnored | respondStale => rfl

/-- In every run, whoever a step makes primary is entitled to it; a legacy
socket only by connecting to a slot neither held nor reserved; and answering
a request that is not open, in particular one that was ended, moves no
control. -/
theorem noSilentPromotion
    (run : Run exec {} (past ++ step :: future) finish) :
    (∀ q, step.after.primary = some q → step.before.primary ≠ some q →
      Entitled past step q) ∧
    (∀ q client, step.after.primary = some q →
      step.before.primary ≠ some q →
      step.after.clients.get? q = some client →
      client.protocol < handoffProtocol →
      (∃ params connectionId,
        step.label = .connect q params connectionId) ∧
        step.before.primary = none ∧ step.before.reservedFor = none) ∧
    (∀ ws requestId accept, step.label = .respond ws requestId accept →
      (∀ q, ¬IsOpen past q requestId) →
      step.after.primary = step.before.primary) ∧
    (∀ ws requestId accept q, step.label = .respond ws requestId accept →
      UniqueIds past → IsEnded past q requestId →
      step.after.primary = step.before.primary) := by
  obtain ⟨pastRun, taken, _⟩ := run.split
  obtain ⟨enabled, todo, _, branch⟩ := transition_of_exec taken
  have stale : ∀ ws requestId accept,
      step.label = .respond ws requestId accept →
      (∀ q, ¬IsOpen past q requestId) →
      step.after.primary = step.before.primary := by
    intro ws requestId accept label notOpen
    rw [label] at branch
    refine primary_eq_of_stale branch ?_
    rintro request pending rfl
    exact notOpen _ (isOpen_of_pending pastRun request pending)
  refine ⟨?_, ?_, stale, ?_⟩
  · exact fun q => entitled_of_promoted pastRun taken
  · intro q client promoted observer found legacy
    rcases capable_of_promoted (fits_of_reachable pastRun.reachable).1 branch
        promoted observer with capable | connecting
    · obtain ⟨same, sameFound, modern⟩ := supportsHandoff_iff.mp capable
      obtain rfl := Option.some.inj (found.symm.trans sameFound)
      exact absurd legacy (not_lt.mpr modern)
    · exact connecting
  · intro ws requestId accept q label unique ended
    exact stale ws requestId accept label fun _ =>
      not_isOpen_of_isEnded unique ended

/-- The last of six steps promotes the second socket. -/
private def promotesLast : List (Step ConnectionManager Op) → Bool
  | [_, _, _, _, _, step] =>
      decide (step.after.primary = some ⟨1⟩ ∧
        step.before.primary ≠ some ⟨1⟩)
  | _ => false

/-- The accepted requester of the last step was entitled to control. -/
theorem noSilentPromotion_acceptedAfterReturn :
    ∃ past step m,
      replay exec {} acceptedAfterReturn = some (past ++ [step], m) ∧
      step.after.primary = some ⟨1⟩ ∧ Entitled past step ⟨1⟩ := by
  have runs : (replay exec {} acceptedAfterReturn).map (fun result =>
      promotesLast result.1) = some true := by
    decide +kernel
  obtain ⟨⟨steps, m⟩, replayed, facts⟩ := Option.map_eq_some_iff.mp runs
  simp only [promotesLast] at facts
  split at facts
  · rename_i first second third fourth fifth step
    obtain ⟨promoted, observer⟩ := of_decide_eq_true facts
    have run : Run exec {} ([first, second, third, fourth, fifth] ++ [step])
        m := run_of_replay replayed
    exact ⟨_, step, m, replayed, promoted,
      (noSilentPromotion run).1 _ promoted observer⟩
  · cases facts

end ConnectionManager
end AbletonTracks
