import AbletonTracks.Server.Roles

/-!
# The roster and the prompt converge

The roster and the handoff message are fixed before the loop that sends them.
Whatever changes one of them also starts a new broadcast, but an older one may
still be on its way: when it goes on after the newer one has reached a socket,
that socket is left with the older text.  Without such an overtaking every
device is left with the current roster and the current prompt.
-/

namespace AbletonTracks

open Library

/-! ## What an operation announces -/

namespace ConnectionManager

variable {m after : ConnectionManager} {op : Op} {todo : List Todo}
  {ws : WebSocket}

/-- The pending request, as its id and its requester's connection id. -/
def pendingRequest (m : ConnectionManager) : Option (String × String) :=
  m.request.bind fun request =>
    (m.clients.get? request.requester).map fun client =>
      (request.requestId, client.connectionId)

theorem broadcastRoster_mem_announce (changes : Changes) :
    .broadcastRoster ∈ announce changes := by
  simp [announce]

theorem broadcastHandoff_mem_announce (changes : Changes) :
    .broadcastHandoff ∈ announce changes := by
  simp [announce]

/-- An operation that changes the roster broadcasts it. -/
theorem roster_changes
    (branch : m.Transition op after todo) :
    .broadcastRoster ∈ todo ∨
      after.roster = m.roster ∧ ∀ ws, ws ∈ after.clients ↔ ws ∈ m.clients := by
  have announced := broadcastRoster_mem_announce
  cases branch with
  | reclaims | supersedes | takesSlot | observes =>
      exact Or.inl (List.mem_cons_of_mem _ (announced _))
  | renames => exact Or.inl List.mem_cons_self
  | absent | leaves | handsBack | reserves | empties | requestTakesSlot
  | accepts | slotGranted => exact Or.inl (announced _)
  | grants | releases | releasesTo =>
      exact Or.inl (List.mem_append_right _ (announced _))
  | _ => exact Or.inr ⟨rfl, fun _ => Iff.rfl⟩

/-- An operation that changes the pending request broadcasts it. -/
theorem pendingRequest_changes
    (branch : m.Transition op after todo) :
    .broadcastHandoff ∈ todo ∨
      after.pendingRequest = m.pendingRequest ∧
        ∀ ws, after.supportsHandoff ws = m.supportsHandoff ws := by
  have announced := broadcastHandoff_mem_announce
  cases branch with
  | reclaims | supersedes | takesSlot | observes =>
      exact Or.inl (List.mem_cons_of_mem _ (announced _))
  | @renames ws _ change keeps =>
      refine Or.inr ⟨?_, supportsHandoff_rename ws keeps⟩
      cases pending : m.request with
      | none => simp [pendingRequest, pending]
      | some request =>
          simp only [pendingRequest, pending, Option.bind_some,
            Dict.get?_modify]
          cases found : m.clients.get? request.requester with
          | none => simp
          | some client => split <;> simp [(keeps client).2.2]
  | absent | leaves | handsBack | reserves | empties | requestTakesSlot
  | accepts | slotGranted => exact Or.inl (announced _)
  | grants | releases | releasesTo =>
      exact Or.inl (List.mem_append_right _ (announced _))
  | requestPends => exact Or.inl List.mem_cons_self
  | withdraws | denies | requestExpires =>
      exact Or.inl (List.mem_cons_of_mem _ List.mem_cons_self)
  | _ => exact Or.inr ⟨rfl, fun _ => rfl⟩

/-- Every disconnect announces. -/
theorem eq_announce_of_disconnect
    (applied : m.apply (.disconnect ws) = .ok (after, todo)) :
    ∃ changes, todo = announce changes := by
  simp only [apply, bind, Except.bind, pure, Except.pure] at applied
  split at applied
  · cases applied
  · simp only [Except.ok.injEq, Prod.mk.injEq] at applied
    exact ⟨_, applied.2.symm⟩

end ConnectionManager

/-! ## The two topics -/

/-- The devices a message lists. -/
def Message.devices? : Message → Option (List Device)
  | .roster devices => some devices
  | _ => none

/-- The request a message shows as pending, by its id and its requester's
connection id.  The requester's name, which it also carries, is left out. -/
def Message.pending? : Message → Option (Option (String × String))
  | .handoff pending =>
      some (pending.map fun shown => (shown.requestId, shown.connectionId))
  | _ => none

theorem Message.pending?_handoffMessage (m : ConnectionManager) :
    m.handoffMessage.pending? = some m.pendingRequest := by
  simp only [ConnectionManager.handoffMessage, Message.pending?,
    ConnectionManager.pendingRequest]
  cases m.request with
  | none => rfl
  | some request =>
      simp only [Option.bind_some, Option.map_map]
      rfl

theorem Message.IsShared.devices?_eq_none
    {message : Message}
    (shared : message.IsShared) :
    message.devices? = none := by
  cases message <;> first | rfl | exact shared.elim

theorem Message.IsShared.pending?_eq_none
    {message : Message}
    (shared : message.IsShared) :
    message.pending? = none := by
  cases message <;> first | rfl | exact shared.elim

/-- A loop of sends over one text reaches each of its recipients, now or with
the entries it leaves. -/
theorem mem_of_recipients
    {first ws : WebSocket} {others : List WebSocket} {message : Message}
    (recipient : ws ∈ first :: others) :
    first = ws ∨
      Todo.deliver ws message ∈
        others.map fun other => Todo.deliver other message := by
  rcases List.mem_cons.mp recipient with rfl | later
  · exact Or.inl rfl
  · exact Or.inr (List.mem_map.mpr ⟨ws, later, rfl⟩)

theorem deliverAll_ne_none
    {message : Message} {ws : WebSocket} {sockets : List WebSocket}
    (recipient : ws ∈ sockets) :
    ConnectionManager.deliverAll message sockets ≠ none := by
  cases sockets with
  | nil => cases recipient
  | cons first others => simp [ConnectionManager.deliverAll]

/-- The list of connected devices, with their roles. -/
def rosterTopic : Topic (List Device) where
  shown := Message.devices?
  current m _ := m.roster
  Audience m ws := ws ∈ m.clients
  Promises m ws entry :=
    entry = .broadcastRoster ∨ entry = .deliver ws (.roster m.roster)
  connected := fun present => present
  speaks := by
    rintro m ws entry app (rfl | rfl) present silent
    · exact deliverAll_ne_none (ConnectionManager.mem_targets.mpr present)
        (Except.ok.inj silent)
    · cases Except.ok.inj silent
  keeps := by
    rintro m ws entry app sending (rfl | rfl) present sends
    · cases sends with
      | broadcastRoster recipients =>
          have recipient := ConnectionManager.mem_targets.mpr present
          rw [recipients] at recipient
          rcases mem_of_recipients recipient with rfl | later
          · exact Or.inl ⟨rfl, rfl⟩
          · exact Or.inr ⟨_, later, Or.inr rfl⟩
    · cases sends
      exact Or.inl ⟨rfl, rfl⟩
  truthful := by
    intro m entry app sending value sends shared shows
    cases sends with
    | push built | sendState built | sendSnapshot built
    | broadcastFullState _ built =>
        obtain ⟨client, _, rfl⟩ := ConnectionManager.snapshotFor_eq_ok built
        cases shows
    | broadcastRoster => exact Or.inl (Option.some.inj shows).symm
    | deliver => exact Or.inr ⟨_, _, rfl⟩
    | broadcast =>
        cases (shared _ rfl).devices?_eq_none.symm.trans shows
    | _ => cases shows
  promises_plain := by
    rintro m ws entry (rfl | rfl) <;> exact id
  changes := by
    intro m after op todo ws _ _ branch present
    rcases ConnectionManager.roster_changes branch with
      broadcast | ⟨same, members⟩
    · exact Or.inl ⟨_, broadcast, Or.inl rfl⟩
    · refine Or.inr (Or.inl ⟨(members ws).mp present, same, ?_⟩)
      intro entry promises
      rwa [same]

/-- The pending request, for the devices that can be asked. -/
def handoffTopic : Topic (Option (String × String)) where
  shown := Message.pending?
  current m _ := m.pendingRequest
  Audience m ws := m.supportsHandoff ws = true
  Promises m ws entry :=
    entry = .broadcastHandoff ∨ entry = .sendHandoff ws ∨
      ∃ message : Message, entry = .deliver ws message ∧
        message.pending? = some m.pendingRequest
  connected := ConnectionManager.mem_of_supportsHandoff
  speaks := by
    rintro m ws entry app (rfl | rfl | ⟨message, rfl, _⟩) capable silent
    · have recipient : ws ∈ m.clients.keys.filter m.supportsHandoff :=
        List.mem_filter.mpr
          ⟨ConnectionManager.mem_of_supportsHandoff capable, capable⟩
      exact deliverAll_ne_none recipient (Except.ok.inj silent)
    · simp only [ConnectionManager.firstSend, if_pos capable] at silent
      cases Except.ok.inj silent
    · cases Except.ok.inj silent
  keeps := by
    rintro m ws entry app sending (rfl | rfl | ⟨message, rfl, shows⟩) capable
      sends
    · cases sends with
      | broadcastHandoff recipients =>
          have recipient : ws ∈ m.clients.keys.filter m.supportsHandoff :=
            List.mem_filter.mpr
              ⟨ConnectionManager.mem_of_supportsHandoff capable, capable⟩
          rw [recipients] at recipient
          rcases mem_of_recipients recipient with rfl | later
          · exact Or.inl ⟨rfl, Message.pending?_handoffMessage m⟩
          · exact Or.inr ⟨_, later, Or.inr (Or.inr ⟨_, rfl,
              Message.pending?_handoffMessage m⟩)⟩
    · cases sends
      exact Or.inl ⟨rfl, Message.pending?_handoffMessage m⟩
    · cases sends
      exact Or.inl ⟨rfl, shows⟩
  truthful := by
    intro m entry app sending value sends shared shows
    cases sends with
    | push built | sendState built | sendSnapshot built
    | broadcastFullState _ built =>
        obtain ⟨client, _, rfl⟩ := ConnectionManager.snapshotFor_eq_ok built
        cases shows
    | broadcastHandoff | sendHandoff =>
        rw [Message.pending?_handoffMessage] at shows
        exact Or.inl (Option.some.inj shows).symm
    | deliver => exact Or.inr ⟨_, _, rfl⟩
    | broadcast =>
        cases (shared _ rfl).pending?_eq_none.symm.trans shows
    | _ => cases shows
  promises_plain := by
    rintro m ws entry (rfl | rfl | ⟨message, rfl, _⟩) <;> exact id
  changes := by
    intro m after op todo ws _ _ branch capable
    rcases ConnectionManager.pendingRequest_changes branch with
      broadcast | ⟨same, capability⟩
    · exact Or.inl ⟨_, broadcast, Or.inl rfl⟩
    · refine Or.inr (Or.inl ⟨(capability ws).symm.trans capable, same, ?_⟩)
      intro entry promises
      rwa [same]

/-! ## Runs -/

namespace System

variable {s : System} {event : Event}

/-- An older broadcast overtakes: it hands a device a roster or a prompt that
no longer holds, after the device was sent the newer one. -/
def Overtakes (s : System) (event : Event) : Prop :=
  rosterTopic.Outdates s event ∨ handoffTopic.Outdates s event

/-- A disconnect announces, so what the handler still owed is owed again. -/
theorem repeats_roster : rosterTopic.Repeats s event := by
  intro ws target rest next m todo old _ _ applied _ _ _
  obtain ⟨changes, rfl⟩ := ConnectionManager.eq_announce_of_disconnect applied
  refine Or.inl ⟨.broadcastRoster, ?_, Or.inl rfl⟩
  exact ConnectionManager.broadcastRoster_mem_announce changes

theorem repeats_handoff : handoffTopic.Repeats s event := by
  intro ws target rest next m todo old _ _ applied _ _ _
  obtain ⟨changes, rfl⟩ := ConnectionManager.eq_announce_of_disconnect applied
  refine Or.inl ⟨.broadcastHandoff, ?_, Or.inl rfl⟩
  exact ConnectionManager.broadcastHandoff_mem_announce changes

/-- At rest nobody leaves and nobody owes, so informed means told. -/
theorem told_of_atRest
    {α : Type} {topic : Topic α} {ws : WebSocket}
    (resting : s.AtRest)
    (informed : topic.KeepsInformed s)
    (audience : topic.Audience s.manager ws) :
    topic.told s ws = some (topic.current s.manager ws) := by
  have staying : ¬s.Leaving ws := by
    rintro ⟨phase, stands, leaves⟩
    rcases resting.phase stands with rfl | rfl <;> cases leaves
  rcases informed ws audience staying with
    told | ⟨c, phase, stands, entry, member, _⟩
  · exact told
  · rcases resting.phase stands with rfl | rfl <;> cases member

/-- In a run without overtaking, every device is left with the current roster,
and every device that can be asked with the current prompt. -/
theorem converges
    {steps : List (Step System Event)}
    (run : Run exec {} steps s)
    (ordered : ∀ step ∈ steps, ¬step.before.Overtakes step.label)
    (resting : s.AtRest) :
    (∀ ws ∈ s.manager.clients,
      rosterTopic.told s ws = some s.manager.roster) ∧
    ∀ ws, s.manager.supportsHandoff ws = true →
      handoffTopic.told s ws = some s.manager.pendingRequest := by
  have informed :
      rosterTopic.KeepsInformed s ∧ handoffTopic.KeepsInformed s := by
    refine run.conditionalInvariant
      (fun current => rosterTopic.KeepsInformed current ∧
        handoffTopic.KeepsInformed current)
      (fun current event => ¬current.Overtakes event) ⟨?_, ?_⟩ ?_ ordered
    · intro ws present
      exact absurd present (Dict.not_mem_empty ws)
    · intro ws capable
      exact absurd (ConnectionManager.mem_of_supportsHandoff capable)
        (Dict.not_mem_empty ws)
    · rintro current event after reachable ⟨roster, handoff⟩ ordered taken
      obtain ⟨freshRoster, freshHandoff⟩ := not_or.mp ordered
      have fits := fits_of_reachable reachable
      exact ⟨roster.exec fits taken freshRoster repeats_roster,
        handoff.exec fits taken freshHandoff repeats_handoff⟩
  exact ⟨fun ws present => told_of_atRest resting informed.1 present,
    fun ws capable => told_of_atRest resting informed.2 capable⟩

/-- The query of another handoff-capable device. -/
private def boothTablet : QueryParams := ⟨some "2", some "booth", none⟩

/-- A second tablet asks the first one for control. -/
private def boothAsks : List Event :=
  [.accept ⟨0⟩ stageTablet "stage"] ++ resumes (.handler ⟨0⟩) 3 ++
    [.accept ⟨1⟩ boothTablet "booth"] ++ resumes (.handler ⟨1⟩) 5 ++
    [.receive ⟨1⟩ (.requestControl "first")] ++ resumes (.handler ⟨1⟩) 2

/-- Whatever the next send of a resumed coroutine tells still holds. -/
private def tellsTruth {α : Type} [DecidableEq α] (topic : Topic α)
    (step : Step System Event) : Bool :=
  match step.label with
  | .resume c _ =>
      match step.before.phase? c with
      | none => true
      | some phase =>
          match step.before.manager.nextSend step.before.ableton.state
            phase.todo with
          | .ok (some sending) =>
              match topic.shown sending.frame.message with
              | none => true
              | some value => value =
                  topic.current step.before.manager sending.frame.socket
          | _ => true
  | _ => true

private theorem not_outdates_of_tellsTruth
    {α : Type} [DecidableEq α] {topic : Topic α} {step : Step System Event}
    (truth : tellsTruth topic step = true) :
    ¬topic.Outdates step.before step.label := by
  rintro ⟨c, raised, phase, sending, value, resumed, _, stands, found, shows, _,
    _, differs, _⟩
  simp only [tellsTruth, resumed, stands, found, shows] at truth
  exact differs (of_decide_eq_true truth)

/-- The second tablet waits for an answer, and both show it. -/
theorem converges_boothAsks :
    ∃ steps s, replay exec {} boothAsks = some (steps, s) ∧
      s.manager.pendingRequest = some ("first", "booth") ∧
      s.manager.supportsHandoff ⟨0⟩ = true ∧
      (∀ ws ∈ s.manager.clients,
        rosterTopic.told s ws = some s.manager.roster) ∧
      ∀ ws, s.manager.supportsHandoff ws = true →
        handoffTopic.told s ws = some s.manager.pendingRequest := by
  have runs : (replay exec {} boothAsks).map (fun result =>
      decide (result.2.manager.pendingRequest = some ("first", "booth") ∧
        result.2.manager.supportsHandoff ⟨0⟩ = true ∧ result.2.AtRest) &&
      result.1.all fun step =>
        tellsTruth rosterTopic step && tellsTruth handoffTopic step) =
      some true := by
    decide +kernel
  obtain ⟨⟨steps, s⟩, replayed, facts⟩ := Option.map_eq_some_iff.mp runs
  rw [Bool.and_eq_true, decide_eq_true_eq, List.all_eq_true] at facts
  obtain ⟨⟨pending, capable, resting⟩, truths⟩ := facts
  refine ⟨steps, s, replayed, pending, capable,
    converges (run_of_replay replayed) ?_ resting⟩
  intro step member overtakes
  obtain ⟨roster, handoff⟩ := Bool.and_eq_true_iff.mp (truths step member)
  rcases overtakes with outdates | outdates
  · exact not_outdates_of_tellsTruth roster outdates
  · exact not_outdates_of_tellsTruth handoff outdates

/-- The query of an old client. -/
private def oldTablet : QueryParams := {}

/-- The primary hangs up while the roster that a rename broadcasts is still
being sent to it. -/
private def primaryHangsUp : List Event :=
  [.accept ⟨0⟩ oldTablet "stage"] ++ resumes (.handler ⟨0⟩) 2 ++
    [.accept ⟨1⟩ oldTablet "keys"] ++ resumes (.handler ⟨1⟩) 3 ++
    [.accept ⟨2⟩ oldTablet "drums"] ++ resumes (.handler ⟨2⟩) 4 ++
    [.receive ⟨1⟩ (.register "Keys"), .peerGone ⟨0⟩, .hangUp ⟨0⟩] ++
    resumes (.handler ⟨0⟩) 2 ++ [.resume (.handler ⟨1⟩) true] ++
    resumes (.handler ⟨1⟩) 2

/-- The other two devices are left with the older roster, whose first device
is the primary that has gone. -/
theorem not_converges_of_primaryHangsUp :
    ∃ steps s, replay exec {} primaryHangsUp = some (steps, s) ∧
      s.AtRest ∧ s.gone = [⟨0⟩] ∧ s.manager.primary = none ∧
      ∀ ws ∈ [(⟨1⟩ : WebSocket), ⟨2⟩], ws ∈ s.manager.clients ∧
        rosterTopic.told s ws ≠ some s.manager.roster ∧
        (rosterTopic.told s ws).map (fun devices =>
          devices.head?.map fun first => (first.connectionId, first.role)) =
          some (some ("stage", .primary)) := by
  have runs : (replay exec {} primaryHangsUp).map (fun result =>
      decide (result.2.AtRest ∧ result.2.gone = [⟨0⟩] ∧
        result.2.manager.primary = none ∧
        ∀ ws ∈ [(⟨1⟩ : WebSocket), ⟨2⟩], ws ∈ result.2.manager.clients ∧
          rosterTopic.told result.2 ws ≠ some result.2.manager.roster ∧
          (rosterTopic.told result.2 ws).map (fun devices =>
            devices.head?.map fun first => (first.connectionId, first.role)) =
            some (some ("stage", .primary)))) = some true := by
    decide +kernel
  obtain ⟨⟨steps, s⟩, replayed, facts⟩ := Option.map_eq_some_iff.mp runs
  exact ⟨steps, s, replayed, of_decide_eq_true facts⟩

end System
end AbletonTracks
