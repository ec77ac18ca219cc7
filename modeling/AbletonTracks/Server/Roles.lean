import AbletonTracks.Manager.Answerable
import AbletonTracks.Server.Topics

/-!
# Every device knows its role

Every state message carries the role that its socket has at that moment, and
whoever's role changes is owed one.  The debt of a connect to an older socket
of the same install stands on the new socket's own to-do list: if its first
send raises, the debt is gone.  Then the older socket goes on believing that it
is primary, unless control comes straight back to it.
-/

namespace AbletonTracks

open Library

namespace ConnectionManager

variable {m after : ConnectionManager} {op : Op} {todo : List Todo}
  {ws : WebSocket}

theorem roleOf_eq_observer (other : m.primary ≠ some ws) :
    m.roleOf ws = .observer :=
  if_neg other

/-- The to-do list tells the socket its role. -/
def TellsRole (ws : WebSocket) (todo : List Todo) : Prop :=
  ∃ entry ∈ todo, (∃ reason, entry = .push ws reason) ∨ entry = .sendState ws

/-- A change that is announced is told. -/
theorem tellsRole_announce
    (reason : RoleReason)
    {changes : Changes}
    (listed : (ws, reason) ∈ changes) :
    TellsRole ws (announce changes) :=
  ⟨_, push_mem_announce listed, Or.inl ⟨reason, rfl⟩⟩

theorem TellsRole.append
    (tells : TellsRole ws todo)
    (front : List Todo) :
    TellsRole ws (front ++ todo) := by
  obtain ⟨entry, member, role⟩ := tells
  exact ⟨entry, List.mem_append_right _ member, role⟩

/-- Whoever observes before and after keeps its role. -/
theorem roleOf_eq_of_observes
    (before : m.primary ≠ some ws)
    (later : after.primary ≠ some ws) :
    after.roleOf ws = m.roleOf ws :=
  (roleOf_eq_observer later).trans (roleOf_eq_observer before).symm

/-- A socket that joins takes control from an older socket of its install at
most. -/
theorem role_of_connect
    {joining : WebSocket} {params : QueryParams} {connectionId : String}
    (fits : m.RolesFit)
    (other : joining ≠ ws)
    (branch : m.Transition (.connect joining params connectionId) after todo) :
    TellsRole ws todo ∨ after.roleOf ws = m.roleOf ws := by
  cases branch with
  | reclaims _ reserved =>
      have vacant := fits.vacant (by simp [reserved])
      exact Or.inr
        (roleOf_eq_of_observes (by simp [vacant]) (by simp [other]))
  | @supersedes _ old _ _ _ _ _ _ primary =>
      by_cases older : old = ws
      · subst older
        exact Or.inl ((tellsRole_announce _ List.mem_cons_self).append [_])
      · exact Or.inr
          (roleOf_eq_of_observes (by simp [primary, older]) (by simp [other]))
  | takesSlot vacant =>
      exact Or.inr
        (roleOf_eq_of_observes (by simp [vacant]) (by simp [other]))
  | observes => exact Or.inr rfl

/-- Whom control goes to when the primary's socket closes is told. -/
theorem role_of_disconnect
    {closing : WebSocket}
    (branch : m.Transition (.disconnect closing) after todo)
    (present : ws ∈ after.clients) :
    TellsRole ws todo ∨ after.roleOf ws = m.roleOf ws := by
  cases branch with
  | absent => exact Or.inr rfl
  | leaves => exact Or.inr (by simp [roleOf])
  | @handsBack _ sibling _ _ _ _ primary =>
      by_cases next : sibling = ws
      · subst next
        exact Or.inl (tellsRole_announce _ List.mem_cons_self)
      · have different : closing ≠ ws := by
          rintro rfl
          simp at present
        exact Or.inr (roleOf_eq_of_observes (by simp [primary, different])
          (by simp [next]))
  | reserves _ primary | empties _ primary =>
      have different : closing ≠ ws := by
        rintro rfl
        simp at present
      exact Or.inr
        (roleOf_eq_of_observes (by simp [primary, different]) (by simp))

theorem role_of_requestControl
    {asking : WebSocket} {requestId : String}
    (branch : m.Transition (.requestControl asking requestId) after todo) :
    TellsRole ws todo ∨ after.roleOf ws = m.roleOf ws := by
  cases branch with
  | requestTakesSlot _ _ vacant =>
      by_cases own : asking = ws
      · subst own
        exact Or.inl (tellsRole_announce _ List.mem_cons_self)
      · exact Or.inr
          (roleOf_eq_of_observes (by simp [vacant]) (by simp [own]))
  | _ => exact Or.inr rfl

/-- Control goes from the primary that accepts to the requester. -/
theorem role_of_respond
    {answering : WebSocket} {requestId : String} {accept : Bool}
    (branch : m.Transition (.respond answering requestId accept) after todo) :
    TellsRole ws todo ∨ after.roleOf ws = m.roleOf ws := by
  cases branch with
  | @accepts _ request _ primary =>
      by_cases promoted : request.requester = ws
      · subst promoted
        exact Or.inl (tellsRole_announce _ List.mem_cons_self)
      · by_cases demoted : answering = ws
        · subst demoted
          refine Or.inl (tellsRole_announce .handedOff ?_)
          simp [Ne.symm promoted]
        · exact Or.inr (roleOf_eq_of_observes (by simp [primary, demoted])
            (by simp [promoted]))
  | _ => exact Or.inr rfl

/-- Control goes from the primary that grants it to the socket it names. -/
theorem role_of_grant
    {granting : WebSocket} {connectionId : String}
    (branch : m.Transition (.grant granting connectionId) after todo) :
    TellsRole ws todo ∨ after.roleOf ws = m.roleOf ws := by
  cases branch with
  | grantIgnored => exact Or.inr rfl
  | @grants _ target _ _ primary =>
      by_cases promoted : target = ws
      · subst promoted
        exact Or.inl ((tellsRole_announce _ List.mem_cons_self).append _)
      · by_cases demoted : granting = ws
        · subst demoted
          exact Or.inl ((tellsRole_announce .handedOff (by simp)).append _)
        · exact Or.inr (roleOf_eq_of_observes (by simp [primary, demoted])
            (by simp [promoted]))

/-- Control goes from the primary that releases it to the requester, if there
is one. -/
theorem role_of_release
    {releasing : WebSocket}
    (primary : m.primary = some releasing)
    (other : releasing ≠ ws)
    (branch : m.Transition (.release releasing) after todo) :
    TellsRole ws todo ∨ after.roleOf ws = m.roleOf ws := by
  have before : m.primary ≠ some ws := by simp [primary, other]
  cases branch with
  | releases => exact Or.inr (roleOf_eq_of_observes before (by simp))
  | @releasesTo _ request =>
      by_cases promoted : request.requester = ws
      · subst promoted
        exact Or.inl ((tellsRole_announce _ List.mem_cons_self).append _)
      · exact Or.inr (roleOf_eq_of_observes before (by simp [promoted]))

theorem role_of_fire
    {task : TaskId}
    (branch : m.Transition (.fire task) after todo) :
    TellsRole ws todo ∨ after.roleOf ws = m.roleOf ws := by
  cases branch with
  | @slotGranted _ _ _ request _ _ _ _ vacant =>
      by_cases promoted : request.requester = ws
      · subst promoted
        exact Or.inl (tellsRole_announce _ List.mem_cons_self)
      · exact Or.inr
          (roleOf_eq_of_observes (by simp [vacant]) (by simp [promoted]))
  | _ => exact Or.inr rfl

/-- An operation that changes a role owes its socket a push; a new socket is
sent its state, and a primary that releases control learns it otherwise. -/
theorem role_changes
    (fits : m.RolesFit)
    (enabled : m.Enabled op)
    (branch : m.Transition op after todo)
    (present : ws ∈ after.clients) :
    TellsRole ws todo ∨ (ws ∈ m.clients ∧ after.roleOf ws = m.roleOf ws) ∨
      op = .release ws := by
  have stays : (∀ params connectionId,
      op ≠ .connect ws params connectionId) → ws ∈ m.clients := by
    intro older
    rcases (mem_clients_iff branch).mp present with
      ⟨before, _⟩ | ⟨params, connectionId, joining⟩
    · exact before
    · exact absurd joining (older params connectionId)
  have kept : (∀ params connectionId, op ≠ .connect ws params connectionId) →
      TellsRole ws todo ∨ after.roleOf ws = m.roleOf ws →
      TellsRole ws todo ∨ (ws ∈ m.clients ∧ after.roleOf ws = m.roleOf ws) ∨
        op = .release ws :=
    fun older role => role.imp_right fun same => Or.inl ⟨stays older, same⟩
  cases op with
  | connect joining =>
      by_cases own : joining = ws
      · subst own
        have state : Todo.sendState joining ∈ todo := by
          cases branch <;> exact List.mem_cons_self
        exact Or.inl ⟨_, state, Or.inr rfl⟩
      · exact kept (by simp [own]) (role_of_connect fits own branch)
  | disconnect => exact kept (by simp) (role_of_disconnect branch present)
  | requestControl => exact kept (by simp) (role_of_requestControl branch)
  | respond => exact kept (by simp) (role_of_respond branch)
  | grant => exact kept (by simp) (role_of_grant branch)
  | release releasing =>
      by_cases own : releasing = ws
      · exact Or.inr (Or.inr (own ▸ rfl))
      · exact kept (by simp) (role_of_release enabled own branch)
  | fire => exact kept (by simp) (role_of_fire branch)
  | setName | cancelRequest | wait =>
      cases branch <;> exact kept (by simp) (Or.inr rfl)

/-- Whom `disconnect` hands the slot to is owed a push. -/
theorem push_of_siblingIs
    {closing next : WebSocket}
    (branch : m.Transition (.disconnect closing) after todo)
    (primary : m.primary = some closing)
    (sibling : m.SiblingIs closing next) :
    .push next .reclaimed ∈ todo := by
  obtain ⟨owner, found, named, takes⟩ := sibling
  cases branch with
  | absent missing =>
      rw [missing] at found
      cases found
  | leaves _ notPrimary => exact absurd primary notPrimary
  | handsBack stored _ carries siblingFound =>
      obtain rfl := Option.some.inj (stored.symm.trans found)
      simp only [sibling?, forget_clients, carries, ne_eq, reduceCtorEq,
        not_false_eq_true, true_and] at siblingFound
      rw [carries, siblingFound] at takes
      obtain rfl := Option.some.inj takes
      exact push_mem_announce List.mem_cons_self
  | reserves stored _ carries nobody =>
      obtain rfl := Option.some.inj (stored.symm.trans found)
      obtain ⟨holder, holderFound, same⟩ := Dict.get?_of_findKey? takes
      refine absurd ?_ (nobody _ holder holderFound)
      rw [← carries]
      exact of_decide_eq_true same
  | empties stored _ anonymous =>
      obtain rfl := Option.some.inj (stored.symm.trans found)
      exact absurd anonymous named

end ConnectionManager

/-! ## The topic -/

theorem Message.IsShared.role?_eq_none
    {message : Message}
    (shared : message.IsShared) :
    message.role? = none := by
  cases message <;> first | rfl | exact shared.elim

/-- The role of each connected device. -/
def roleTopic : Topic Role where
  shown := Message.role?
  current := ConnectionManager.roleOf
  Audience m ws := ws ∈ m.clients
  Promises _ ws entry :=
    (∃ reason, entry = .push ws reason) ∨ entry = .sendState ws
  connected := fun present => present
  speaks := by
    rintro m ws entry app (⟨reason, rfl⟩ | rfl) present silent
    · obtain ⟨message, built⟩ :=
        ConnectionManager.snapshotFor_of_mem present app (some reason)
      simp only [ConnectionManager.firstSend, if_pos present, built] at silent
      cases silent
    · obtain ⟨message, built⟩ :=
        ConnectionManager.snapshotFor_of_mem present app none
      simp only [ConnectionManager.firstSend, built] at silent
      cases silent
  keeps := by
    rintro m ws entry app sending (⟨reason, rfl⟩ | rfl) _ sends
    · cases sends with
      | push built => exact Or.inl ⟨rfl, Message.role?_of_snapshotFor built⟩
    · cases sends with
      | sendState built =>
          exact Or.inl ⟨rfl, Message.role?_of_snapshotFor built⟩
  truthful := by
    intro m entry app sending value sends shared shows
    cases sends with
    | push built | sendState built | sendSnapshot built
    | broadcastFullState _ built =>
        rw [Message.role?_of_snapshotFor built] at shows
        exact Or.inl (Option.some.inj shows).symm
    | deliver => exact Or.inr ⟨_, _, rfl⟩
    | broadcast =>
        cases (shared _ rfl).role?_eq_none.symm.trans shows
    | _ => cases shows
  promises_plain := by
    rintro m ws entry (⟨reason, rfl⟩ | rfl) <;> exact id
  changes := by
    intro m after op todo ws fits enabled branch present
    rcases ConnectionManager.role_changes fits enabled branch present with
      promised | ⟨before, same⟩ | released
    · exact Or.inl promised
    · exact Or.inr (Or.inl ⟨before, same, fun _ => id⟩)
    · exact Or.inr (Or.inr released)

/-- The coroutine is in the middle of a connect, of announcing role changes, or
of leaving after a release. -/
def Phase.ChangesRoles (phase : Phase) : Prop :=
  phase.next? = some .leave ∨ ∃ entry ∈ phase.todo, ∃ ws,
    (∃ reason, entry = .push ws reason) ∨ entry = .sendState ws

namespace System

variable {s : System} {event : Event}

/-- The first send of a handler raises, and the push that it still owed to an
older socket is lost: that socket was last told another role than it has, no
other coroutine is about to tell it, and the slot does not go straight back to
it. -/
def DropsAnnouncement (s : System) : Event → Prop
  | .resume (.handler ws) true =>
      ∃ target rest next old,
        s.phase? (.handler ws) = some (.sending target false rest next) ∧
        (∃ reason, .push old reason ∈ rest) ∧
        old ∈ s.manager.clients ∧ old ≠ ws ∧ ¬s.Leaving old ∧
        roleTopic.told s old ≠ some (s.manager.roleOf old) ∧
        (∀ other, other ≠ .handler ws → ¬roleTopic.Owes s other old) ∧
        ¬(s.manager.primary = some ws ∧ s.manager.SiblingIs ws old)
  | _ => False

/-- No text that is fixed in advance tells a role. -/
theorem not_outdates_role (fits : s.Fits) : ¬roleTopic.Outdates s event := by
  rintro ⟨c, raised, phase, sending, value, _, _, stands, found, shows, _, _,
    differs, _⟩
  have phaseFits := fits.phases _ _ stands
  rcases Topic.truth_or_deliver phaseFits found shows with truth | frozen
  · exact differs truth
  · have silent : sending.frame.message.role? = none := by
      rcases phaseFits.proper _ frozen with
        plain | ⟨devices, roster⟩ | ⟨pending, handoff⟩
      · exact plain.role?_eq_none
      · rw [roster]
        rfl
      · rw [handoff]
        rfl
    cases silent.symm.trans shows

/-- Promises of a push that are dropped are made again or superfluous, unless
the step is one of those that lose an announcement. -/
theorem repeats_role
    (fits : s.Fits)
    (informed : roleTopic.KeepsInformed s)
    (kept : ¬s.DropsAnnouncement event) :
    roleTopic.Repeats s event := by
  rintro ws target rest next m todo old rfl stands applied present stays
    staying
  have branch := ConnectionManager.transition_of_apply applied
  have different : old ≠ ws := by
    rintro rfl
    have members := (ConnectionManager.mem_clients_iff branch).mp stays
    simp at members
  by_contra lost
  obtain ⟨unrepeated, forgotten⟩ := not_or.mp lost
  obtain ⟨untold, unowed⟩ := not_or.mp forgotten
  refine kept ⟨target, rest, next, old, stands, ?_, present, different,
    staying, untold, fun other ne owes => unowed ⟨other, ne, owes⟩, ?_⟩
  · rcases informed old present staying with told | ⟨c, owes⟩
    · exact absurd told untold
    · by_cases own : c = .handler ws
      · obtain ⟨phase, found, entry, member, promises⟩ := owes
        rw [own] at found
        obtain rfl := Option.some.inj (stands.symm.trans found)
        rcases promises with ⟨reason, rfl⟩ | rfl
        · exact ⟨reason, member⟩
        · have proper := (fits.phases _ _ stands).proper _ member
          exact absurd (Coroutine.handler.inj proper.1).symm different
      · exact absurd ⟨c, own, owes⟩ unowed
  · rintro ⟨primary, sibling⟩
    exact unrepeated ⟨_, ConnectionManager.push_of_siblingIs branch primary
      sibling, Or.inl ⟨_, rfl⟩⟩

/-- In a run whose steps lose no announcement, every connected device was last
told its role whenever nobody is in the middle of changing roles. -/
theorem toldRole_eq_roleOf
    {steps : List (Step System Event)}
    (run : Run exec {} steps s)
    (kept : ∀ step ∈ steps, ¬step.before.DropsAnnouncement step.label)
    (quiet : ∀ c phase, s.phase? c = some phase → ¬phase.ChangesRoles) :
    ∀ ws ∈ s.manager.clients,
      roleTopic.told s ws = some (s.manager.roleOf ws) := by
  have informed : roleTopic.KeepsInformed s := by
    refine run.conditionalInvariant roleTopic.KeepsInformed
      (fun current event => ¬current.DropsAnnouncement event) ?_ ?_ kept
    · intro ws present
      exact absurd present (Dict.not_mem_empty ws)
    · intro current event after reachable informed kept taken
      have fits := fits_of_reachable reachable
      exact informed.exec fits taken (not_outdates_role fits)
        (repeats_role fits informed kept)
  intro ws present
  have staying : ¬s.Leaving ws := fun ⟨phase, stands, leaves⟩ =>
    quiet _ phase stands (Or.inl leaves)
  rcases informed ws present staying with
    told | ⟨c, phase, stands, entry, member, promises⟩
  · exact told
  · exact absurd (Or.inr ⟨entry, member, ws, promises⟩)
      (quiet c phase stands)

/-- Two sockets of one tablet; the second one supersedes the first. -/
private def supersededOnce : List Event :=
  [.accept ⟨0⟩ stageTablet "c0"] ++ resumes (.handler ⟨0⟩) 3 ++
    [.accept ⟨1⟩ stageTablet "c1"] ++ resumes (.handler ⟨1⟩) 6

private def raises (step : Step System Event) : Bool :=
  match step.label with
  | .resume _ raised => raised
  | _ => false

/-- The second socket of a tablet takes over, and the first one knows. -/
theorem toldRole_eq_roleOf_supersededOnce :
    ∃ steps s, replay exec {} supersededOnce = some (steps, s) ∧
      s.manager.primary = some ⟨1⟩ ∧ (⟨0⟩ : WebSocket) ∈ s.manager.clients ∧
      ∀ ws ∈ s.manager.clients,
        roleTopic.told s ws = some (s.manager.roleOf ws) := by
  have runs : (replay exec {} supersededOnce).map (fun result =>
      decide (result.2.manager.primary = some ⟨1⟩ ∧
        (⟨0⟩ : WebSocket) ∈ result.2.manager.clients ∧ result.2.AtRest) &&
      result.1.all fun step => !raises step) = some true := by
    decide +kernel
  obtain ⟨⟨steps, s⟩, replayed, facts⟩ := Option.map_eq_some_iff.mp runs
  rw [Bool.and_eq_true, decide_eq_true_eq, List.all_eq_true] at facts
  obtain ⟨⟨primary, present, resting⟩, smooth⟩ := facts
  refine ⟨steps, s, replayed, primary, present,
    toldRole_eq_roleOf (run_of_replay replayed) ?_ ?_⟩
  · intro step member drops
    have calm := smooth step member
    unfold DropsAnnouncement at drops
    split at drops
    · rename_i resumed
      simp [raises, resumed] at calm
    · exact drops
  · rintro c phase stands (leaves | ⟨entry, member, _⟩)
    · rcases resting.phase stands with rfl | rfl <;> cases leaves
    · rcases resting.phase stands with rfl | rfl <;> cases member

/-- A third socket of the tablet supersedes the second one, but its own first
send raises. -/
private def thirdSocketFails : List Event :=
  supersededOnce ++
    [.accept ⟨2⟩ stageTablet "c2", .peerGone ⟨2⟩,
      .resume (.handler ⟨2⟩) true] ++ resumes (.handler ⟨2⟩) 5

/-- Control comes back to the first socket, and the second one goes on
believing that it is primary. -/
theorem not_toldRole_of_thirdSocketFails :
    ∃ steps s, replay exec {} thirdSocketFails = some (steps, s) ∧
      s.AtRest ∧ (⟨1⟩ : WebSocket) ∈ s.manager.clients ∧ ⟨1⟩ ∉ s.gone ∧
      s.manager.roleOf ⟨1⟩ = .observer ∧
      roleTopic.told s ⟨1⟩ = some .primary := by
  have runs : (replay exec {} thirdSocketFails).map (fun result =>
      decide (result.2.AtRest ∧
        (⟨1⟩ : WebSocket) ∈ result.2.manager.clients ∧
        ⟨1⟩ ∉ result.2.gone ∧ result.2.manager.roleOf ⟨1⟩ = .observer ∧
        roleTopic.told result.2 ⟨1⟩ = some .primary)) = some true := by
    decide +kernel
  obtain ⟨⟨steps, s⟩, replayed, facts⟩ := Option.map_eq_some_iff.mp runs
  exact ⟨steps, s, replayed, of_decide_eq_true facts⟩

end System
end AbletonTracks
