import AbletonTracks.Server.Convergence

/-!
# Facts of the shared state that the devices are told

The bridge has every change of the songs and of the transport broadcast: as a
full state, which each socket's send reads anew, or as a position, a text that
is fixed when the change happens.  A device is informed of such a fact when the
last message that tells of it shows what holds now, or when some coroutine is
still going to tell it.

`Fact` says what is told and which events change it.  Two steps of the server
can leave a device uninformed, and nothing else: a broadcast that hands over an
older text, and a full-state broadcast that raises at a socket that has left
while others are still waiting behind it.
-/

namespace AbletonTracks

open Library

/-- Something in the shared state that the devices are told. -/
structure Fact (α : Type) where
  /-- What a full state shows. -/
  ofState : FullSnapshot → α
  /-- What a position shows, if it shows the fact at all. -/
  ofPosition : PositionSnapshot → Option α
  /-- A queued jump is no part of it. -/
  queued : ∀ (app : AppState) songIndex sectionIndex launchBeat,
    ofState { app.fullSnapshot with
      queuedSongIndex := songIndex
      queuedSectionIndex := sectionIndex
      queuedLaunchBeat := launchBeat } = ofState app.fullSnapshot
  /-- Every event that changes it has it broadcast. -/
  changes : ∀ (bridge : AbletonBridge) (event : AbletonBridge.Event),
    ofState (bridge.handle event).1.state.fullSnapshot =
        ofState bridge.state.fullSnapshot ∨
      .stateChange ∈ (bridge.handle event).2 ∨
      .positionUpdate ∈ (bridge.handle event).2 ∧
        ofPosition (bridge.handle event).1.state.positionSnapshot =
          some (ofState (bridge.handle event).1.state.fullSnapshot)

namespace Fact

variable {α : Type} (fact : Fact α)

/-- What holds. -/
def current (app : AppState) : α := fact.ofState app.fullSnapshot

/-- What a message tells of the fact. -/
def shown : Message → Option α
  | .state snapshot _ _ _ _ => some (fact.ofState snapshot)
  | .position snapshot => fact.ofPosition snapshot
  | _ => none

/-- What a socket was told last. -/
def told (s : System) (ws : WebSocket) : Option α :=
  s.sent.reverse.findSome? fun sent =>
    if sent.frame.socket = ws then fact.shown sent.frame.message else none

/-- Entries of a coroutine that will tell a socket the given value.  A push
for a new role is not counted on: its handler may drop it. -/
def Promises (value : α) (c : Coroutine) (ws : WebSocket) : Todo → Prop
  | .broadcastFullState => True
  | .sendSnapshot other | .sendState other => other = ws
  | .broadcast message =>
      (∃ number, c = .task number) ∧ fact.shown message = some value
  | .deliver other message =>
      other = ws ∧ (∃ number, c = .task number) ∧
        fact.shown message = some value
  | _ => False

/-- A coroutine still has to tell a socket. -/
def Owes (value : α) (s : System) (c : Coroutine) (ws : WebSocket) : Prop :=
  ∃ phase, s.phase? c = some phase ∧
    ∃ entry ∈ phase.todo, fact.Promises value c ws entry

/-- A socket knows the value, or will be told. -/
def Informed (value : α) (s : System) (ws : WebSocket) : Prop :=
  fact.told s ws = some value ∨ ∃ c, fact.Owes value s c ws

/-- Every device knows the value or will be told, unless its own handler is
about to leave. -/
def Tells (value : α) (s : System) : Prop :=
  ∀ ws ∈ s.manager.clients, ¬s.Leaving ws → fact.Informed value s ws

/-- Every device knows what holds, or will be told. -/
def KeepsTold (s : System) : Prop :=
  fact.Tells (fact.current s.ableton.state) s

variable {fact} {value : α} {s after : System} {c : Coroutine}
  {ws : WebSocket} {phase : Phase} {next : Next} {sending : Sending}

/-! ## One entry -/

theorem shown_of_snapshotFor
    {m : ConnectionManager} {app : AppState} {reason : Option RoleReason}
    {message : Message}
    (built : m.snapshotFor app ws reason = .ok message) :
    fact.shown message = some (fact.current app) := by
  obtain ⟨client, _, rfl⟩ := ConnectionManager.snapshotFor_eq_ok built
  rfl

/-- An entry that promises sends something. -/
theorem Promises.speaks
    {m : ConnectionManager} {app : AppState} {entry : Todo}
    (promises : fact.Promises value c ws entry)
    (present : ws ∈ m.clients) :
    m.firstSend app entry ≠ .ok none := by
  have recipient := ConnectionManager.mem_targets.mpr present
  intro silent
  cases entry with
  | broadcastFullState =>
      simp only [ConnectionManager.firstSend] at silent
      split at silent
      · rename_i nobody
        rw [nobody] at recipient
        cases recipient
      · rename_i first others recipients
        obtain ⟨message, built⟩ := ConnectionManager.snapshotFor_of_mem
          (ConnectionManager.mem_targets.mp
            (recipients ▸ List.mem_cons_self : first ∈ m.targets)) app none
        simp only [built] at silent
        cases silent
  | sendSnapshot other | sendState other =>
      obtain rfl : other = ws := promises
      obtain ⟨message, built⟩ :=
        ConnectionManager.snapshotFor_of_mem present app none
      simp only [ConnectionManager.firstSend, built] at silent
      cases silent
  | broadcast message =>
      exact deliverAll_ne_none recipient (Except.ok.inj silent)
  | deliver other message => cases Except.ok.inj silent
  | _ => exact promises.elim

/-- A promise is kept by the entry's first send or passed on to what is left
of the entry. -/
theorem Promises.keeps
    {m : ConnectionManager} {app : AppState} {entry : Todo}
    (promises : fact.Promises value c ws entry)
    (present : ws ∈ m.clients)
    (sends : m.FirstSend app entry sending)
    (truth : sending.frame.socket = ws → ∀ shown,
      fact.shown sending.frame.message = some shown → shown = value) :
    (sending.frame.socket = ws ∧
        fact.shown sending.frame.message = some value) ∨
      ∃ left ∈ sending.rest, fact.Promises value c ws left := by
  have recipient := ConnectionManager.mem_targets.mpr present
  have fresh : ∀ {reason message}, sending.frame.message = message →
      sending.frame.socket = ws →
      m.snapshotFor app sending.frame.socket reason = .ok message →
      fact.shown sending.frame.message = some value := by
    rintro reason message rfl recipient built
    have shows : fact.shown sending.frame.message = _ :=
      shown_of_snapshotFor built
    rw [shows, truth recipient _ shows]
  cases sends with
  | sendSnapshot built | sendState built =>
      exact Or.inl ⟨promises, fresh rfl promises built⟩
  | @broadcastFullState first others _ recipients built =>
      rw [recipients] at recipient
      rcases List.mem_cons.mp recipient with rfl | later
      · exact Or.inl ⟨rfl, fresh rfl rfl built⟩
      · exact Or.inr ⟨.sendSnapshot ws, List.mem_map_of_mem later, rfl⟩
  | broadcast recipients =>
      rw [recipients] at recipient
      rcases mem_of_recipients recipient with rfl | later
      · exact Or.inl ⟨rfl, promises.2⟩
      · exact Or.inr ⟨_, later, rfl, promises⟩
  | deliver => exact Or.inl ⟨promises.1, promises.2.2⟩
  | _ => exact promises.elim

/-! ## One move -/

theorem told_suspend :
    fact.told (s.suspend c sending next) ws =
      if sending.frame.socket = ws then
        (fact.shown sending.frame.message).or (fact.told s ws)
      else fact.told s ws := by
  simp only [told, System.suspend, List.reverse_append, List.reverse_cons,
    List.reverse_nil, List.nil_append, List.singleton_append,
    List.findSome?_cons]
  by_cases recipient : sending.frame.socket = ws
  · simp only [if_pos recipient]
    cases fact.shown sending.frame.message <;> rfl
  · simp only [if_neg recipient]

/-- A debt stays while its coroutine stands where it stands. -/
theorem Owes.of_same
    (owes : fact.Owes value s c ws)
    (stands : after.phase? c = s.phase? c) :
    fact.Owes value after c ws := by
  obtain ⟨phase, found, promised⟩ := owes
  exact ⟨phase, stands.trans found, promised⟩

/-- Nothing is told and no promise is lost. -/
theorem Informed.of_same
    (informed : fact.Informed value s ws)
    (sent : after.sent = s.sent)
    (owed : ∀ c, fact.Owes value s c ws →
      ∃ other, fact.Owes value after other ws) :
    fact.Informed value after ws := by
  rcases informed with told | ⟨c, owes⟩
  · left
    rw [← told]
    simp only [Fact.told, sent]
  · exact Or.inr (owed c owes)

/-- A coroutine without a promise on its list may change its phase. -/
theorem Informed.enter
    {new : Phase}
    (informed : fact.Informed value s ws)
    (silent : ¬fact.Owes value s c ws) :
    fact.Informed value (s.enter c new) ws := by
  refine informed.of_same rfl fun other owes => ⟨other, ?_⟩
  refine owes.of_same (System.phase?_enter_of_ne ?_ new)
  rintro rfl
  exact silent owes

/-- A send that tells the truth, or after which the truth is still owed. -/
theorem Informed.suspend
    {app : AppState}
    (informed : fact.Informed value s ws)
    (present : ws ∈ s.manager.clients)
    (stands : s.phase? c = some phase)
    (found : s.manager.nextSend app phase.todo = .ok (some sending))
    (fresh : ∀ shown, sending.frame.socket = ws →
      fact.shown sending.frame.message = some shown →
      shown = value ∨
      (∃ left ∈ sending.rest, fact.Promises value c ws left) ∨
      ∃ other, other ≠ c ∧ fact.Owes value s other ws) :
    fact.Informed value (s.suspend c sending next) ws := by
  by_cases owed : (∃ left ∈ sending.rest, fact.Promises value c ws left) ∨
      ∃ other, other ≠ c ∧ fact.Owes value s other ws
  · rcases owed with ⟨left, member, promises⟩ | ⟨other, different, owes⟩
    · exact Or.inr ⟨c, _, System.phase?_enter_self _ _, left, member, promises⟩
    · exact Or.inr ⟨other, owes.of_same
        (System.phase?_enter_of_ne different _)⟩
  · have truth : sending.frame.socket = ws → ∀ shown,
        fact.shown sending.frame.message = some shown → shown = value :=
      fun recipient shown shows =>
        (fresh shown recipient shows).resolve_right owed
    obtain ⟨ownOwed, othersOwed⟩ := not_or.mp owed
    left
    rw [told_suspend]
    rcases informed with told | ⟨other, stood, found', entry, member, promises⟩
    · split
      · rename_i recipient
        cases shows : fact.shown sending.frame.message with
        | none => exact told
        | some shown => rw [truth recipient shown shows, Option.some_or]
      · exact told
    · have same : other = c := by
        by_contra different
        exact othersOwed ⟨other, different, stood, found', entry, member,
          promises⟩
      subst same
      obtain rfl := Option.some.inj (found'.symm.trans stands)
      -- The promise sends, is sent, or stands later on the list.
      obtain ⟨skipped, head, later, first, todo, skips, sends, rfl⟩ :=
        ConnectionManager.nextSend_eq_some found
      rw [todo] at member
      rcases List.mem_append.mp member with earlier | rest
      · exact absurd (skips entry earlier) (promises.speaks present)
      · rcases List.mem_cons.mp rest with rfl | late
        · rcases promises.keeps present sends truth with
            ⟨recipient, shows⟩ | ⟨left, stays, promised⟩
          · rw [if_pos recipient]
            exact congrArg (Option.or · _) shows
          · exact absurd ⟨left, List.mem_append_left _ stays, promised⟩
              ownOwed
        · exact absurd ⟨entry, List.mem_append_right _ late, promises⟩ ownOwed

/-! ## Continuations -/

/-- Everything sent since tells the value, if it tells the fact at all. -/
def Truthful (value : α) (s after : System) : Prop :=
  ∃ more, after.sent = s.sent ++ more ∧
    ∀ sent ∈ more, ∀ shown,
      fact.shown sent.frame.message = some shown → shown = value

theorem sent_continuation
    {actor : Option Coroutine}
    (moved : System.Continuation actor s after) :
    ∃ more, after.sent = s.sent ++ more := by
  cases moved with
  | drives _ _ _ sent _ => exact ⟨[], by rw [sent, List.append_nil]⟩
  | sends => exact ⟨_, rfl⟩
  | _ => exact ⟨[], (List.append_nil _).symm⟩

theorem sendState_mem_of_connect
    {m joined : ConnectionManager} {params : QueryParams}
    {connectionId : String} {todo : List Todo}
    (branch : m.Transition (.connect ws params connectionId) joined todo) :
    .sendState ws ∈ todo := by
  cases branch <;> exact List.mem_cons_self

/-- Who performs an operation owes nothing. -/
theorem not_owes_of_performs
    {op : Op}
    (performs : s.Performs c op next) :
    ¬fact.Owes value s c ws := by
  rintro ⟨phase, found, entry, member, _⟩
  cases performs with
  | accepted fresh | fired fresh =>
      rw [fresh] at found
      cases found
  | heard stands | released stands =>
      obtain rfl := Option.some.inj (stands.symm.trans found)
      cases member
  | left stands _ empty =>
      obtain rfl := Option.some.inj (stands.symm.trans found)
      rw [empty] at member
      cases member

/-- A new device is owed its state, and nobody else loses a promise. -/
theorem Tells.operates
    {op : Op} {m : ConnectionManager} {todo : List Todo}
    (tells : fact.Tells value s)
    (performs : s.Performs c op next)
    (applied : s.manager.apply op = .ok (m, todo)) :
    fact.Tells value
      ({ s with manager := m }.enter c (.ready todo next)) := by
  intro ws present staying
  have branch := ConnectionManager.transition_of_apply applied
  rcases (ConnectionManager.mem_clients_iff branch).mp present with
    ⟨before, stays⟩ | ⟨params, connectionId, rfl⟩
  · have known : fact.Informed value s ws := by
      refine tells ws before ?_
      rintro ⟨phase, found, leaves⟩
      by_cases own : c = .handler ws
      · -- Only a disconnect is performed by a handler that is leaving.
        subst own
        cases performs with
        | accepted fresh =>
            rw [fresh] at found
            cases found
        | heard stands | released stands =>
            obtain rfl := Option.some.inj (stands.symm.trans found)
            cases leaves
        | left => exact stays rfl
      · exact staying ⟨phase,
          (System.phase?_enter_of_ne (Ne.symm own) _).trans found, leaves⟩
    refine known.of_same rfl fun other owes => ⟨other, owes.of_same ?_⟩
    refine System.phase?_enter_of_ne ?_ _
    rintro rfl
    exact not_owes_of_performs performs owes
  · cases performs with
    | accepted =>
        exact Or.inr ⟨_, _, System.phase?_enter_self _ _, .sendState ws,
          sendState_mem_of_connect branch, rfl⟩
    | heard _ asked => exact asked.elim

/-- A continuation in which nothing raises loses no promise. -/
theorem Tells.continuation
    {actor : Option Coroutine}
    (tells : fact.Tells value s)
    (fits : s.Fits)
    (unfailed : after.failed = s.failed)
    (moved : System.Continuation actor s after)
    (truthful : fact.Truthful value s after) :
    fact.Tells value after := by
  intro ws present staying
  cases moved with
  | drives manager coroutines _ sent _ =>
      have samePhase : ∀ c, after.phase? c = s.phase? c := by
        intro c
        simp only [System.phase?, coroutines]
      rw [manager] at present
      refine (tells ws present ?_).of_same sent fun c owes =>
        ⟨c, owes.of_same (samePhase c)⟩
      rintro ⟨phase, found, leaves⟩
      exact staying ⟨phase, (samePhase _).trans found, leaves⟩
  | waits =>
      exact (tells ws present staying).of_same rfl fun c owes =>
        ⟨c, owes.of_same rfl⟩
  | spawns =>
      refine (tells ws present ?_).of_same rfl ?_
      · rintro ⟨phase, found, leaves⟩
        exact staying ⟨phase, fits.phase?_createTask found, leaves⟩
      · rintro c ⟨phase, found, owes⟩
        exact ⟨c, phase, fits.phase?_createTask found, owes⟩
  | operates _ performs applied =>
      exact tells.operates performs applied ws present staying
  | begins _ stands =>
      refine (tells ws present
        (Topic.not_leaving_of_enter stands ?_ staying)).enter ?_
      · intro impossible
        cases impossible
      · rintro ⟨phase, found, entry, member, _⟩
        obtain rfl := Option.some.inj (stands.symm.trans found)
        cases member
  | @sends c todo next sending _ stands _ found =>
      have stays : ¬s.Leaving ws := by
        refine Topic.not_leaving_of_enter stands ?_ staying
        exact id
      refine (tells ws present stays).suspend present stands found ?_
      intro shown _ shows
      obtain ⟨more, sent, truth⟩ := truthful
      obtain rfl := List.append_cancel_left sent
      exact Or.inl (truth _ (List.mem_singleton_self _) shown shows)
  | @exhausts c phase next _ stands goesOn found =>
      refine (tells ws present (Topic.not_leaving_of_enter stands
        goesOn.symm.trans staying)).enter ?_
      rintro ⟨stood, found', entry, member, promises⟩
      obtain rfl := Option.some.inj (stands.symm.trans found')
      exact promises.speaks present
        (ConnectionManager.nextSend_eq_none found entry member)
  | rests _ stands resting =>
      refine (tells ws present (Topic.not_leaving_of_enter stands ?_
        staying)).enter ?_
      · intro impossible
        cases resting <;> cases impossible
      · rintro ⟨phase, found, entry, member, _⟩
        obtain rfl := Option.some.inj (stands.symm.trans found)
        cases member
  | fails => simp [System.fail] at unfailed

theorem sent_continues
    {actor : Option Coroutine}
    (moved : System.Continues actor s after) :
    ∃ more, after.sent = s.sent ++ more := by
  induction moved with
  | refl => exact ⟨[], (List.append_nil _).symm⟩
  | tail _ step inductionHypothesis =>
      obtain ⟨early, earlier⟩ := inductionHypothesis
      obtain ⟨late, later⟩ := sent_continuation step
      exact ⟨early ++ late, by rw [later, earlier, List.append_assoc]⟩

theorem Tells.continues
    {actor : Option Coroutine}
    (tells : fact.Tells value s)
    (fits : s.Fits)
    (handler : ∀ number, actor ≠ some (.task number))
    (moved : System.Continues actor s after)
    (truthful : fact.Truthful value s after) :
    fact.Tells value after := by
  induction moved with
  | refl => exact tells
  | tail earlier step inductionHypothesis =>
      obtain ⟨early, before⟩ := sent_continues earlier
      obtain ⟨late, later⟩ := sent_continuation step
      obtain ⟨more, sent, truth⟩ := truthful
      rw [later, before, List.append_assoc] at sent
      obtain rfl := List.append_cancel_left sent
      rw [List.forall_mem_append] at truth
      refine (inductionHypothesis ⟨early, before, truth.1⟩).continuation
        (fits.continues earlier) ?_ step ⟨late, later, truth.2⟩
      cases step with
      | drives _ _ _ _ failed => exact failed
      | fails acts => exact absurd acts (handler _)
      | _ => rfl

end Fact
end AbletonTracks
