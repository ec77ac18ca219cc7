import AbletonTracks.Server.Steps

/-!
# Topics that the devices are kept informed of

A topic is something a device should know, such as its role or the roster.
A socket is informed of a topic when the last message that tells of it shows
what holds now, or when some coroutine still has an entry on its to-do list
that promises to tell.

`Topic` lists what the manager guarantees of a topic: whatever changes it also
promises to tell, and a promise ends only by being kept.  `Informed.exec` turns
this into an invariant of the server, except for the two steps that can break
it: a step that drops promises, and a step that sends a text that was fixed
before the topic changed.
-/

namespace AbletonTracks

open Library

/-- Something that devices are told. -/
structure Topic (α : Type) where
  /-- What a message tells of the topic. -/
  shown : Message → Option α
  /-- What a socket should be told. -/
  current : ConnectionManager → WebSocket → α
  /-- Who is told. -/
  Audience : ConnectionManager → WebSocket → Prop
  /-- Entries that will tell a socket what holds now. -/
  Promises : ConnectionManager → WebSocket → Todo → Prop
  connected : ∀ {m ws}, Audience m ws → ws ∈ m.clients
  /-- An entry that promises sends something. -/
  speaks : ∀ {m ws entry app}, Promises m ws entry → Audience m ws →
    m.firstSend app entry ≠ .ok none
  /-- A promise is kept by the entry's first send or passed on to what is left
  of the entry. -/
  keeps : ∀ {m ws entry app sending}, Promises m ws entry → Audience m ws →
    m.FirstSend app entry sending →
      (sending.frame.socket = ws ∧
        shown sending.frame.message = some (current m ws)) ∨
      ∃ left ∈ sending.rest, Promises m ws left
  /-- Only a text that was fixed before can tell something else. -/
  truthful : ∀ {m entry app sending value}, m.FirstSend app entry sending →
    (∀ message : Message, entry = .broadcast message → message.IsShared) →
    shown sending.frame.message = some value →
      value = current m sending.frame.socket ∨
      ∃ ws message, entry = .deliver ws message
  /-- No promise is part of a full-state broadcast. -/
  promises_plain : ∀ {m ws entry}, Promises m ws entry → ¬entry.IsFullState
  /-- An operation that changes the topic promises to tell; only a device that
  gives up its own control is told in another way. -/
  changes : ∀ {m after op todo ws}, m.RolesFit → m.Enabled op →
    m.Transition op after todo → Audience after ws →
      (∃ entry ∈ todo, Promises after ws entry) ∨
      (Audience m ws ∧ current after ws = current m ws ∧
        ∀ entry, Promises m ws entry → Promises after ws entry) ∨
      op = .release ws

namespace Topic

variable {α : Type} (topic : Topic α)

/-- What a socket was told last. -/
def told (s : System) (ws : WebSocket) : Option α :=
  s.sent.reverse.findSome? fun sent =>
    if sent.frame.socket = ws then topic.shown sent.frame.message else none

/-- A coroutine still has to tell a socket. -/
def Owes (s : System) (c : Coroutine) (ws : WebSocket) : Prop :=
  ∃ phase, s.phase? c = some phase ∧
    ∃ entry ∈ phase.todo, topic.Promises s.manager ws entry

/-- A socket knows what holds now, or will be told. -/
def Informed (s : System) (ws : WebSocket) : Prop :=
  topic.told s ws = some (topic.current s.manager ws) ∨
    ∃ c, topic.Owes s c ws

end Topic

namespace System

/-- The handler of a socket is about to leave. -/
def Leaving (s : System) (ws : WebSocket) : Prop :=
  ∃ phase, s.phase? (.handler ws) = some phase ∧ phase.next? = some .leave

/-- No handler, timer or broadcast is in progress. -/
def AtRest (s : System) : Prop :=
  ∀ item ∈ s.coroutines.entries, item.2 = .receiving ∨ item.2 = .done

instance (s : System) : Decidable s.AtRest :=
  inferInstanceAs (Decidable (∀ item ∈ s.coroutines.entries, _ ∨ _))

theorem AtRest.phase
    {s : System} {c : Coroutine} {phase : Phase}
    (resting : s.AtRest)
    (stands : s.phase? c = some phase) :
    phase = .receiving ∨ phase = .done :=
  resting (c, phase) (Dict.mem_entries_iff.mpr stands)

end System

namespace Topic

variable {α : Type} {topic : Topic α} {s after : System} {c : Coroutine}
  {ws : WebSocket} {phase : Phase} {next : Next} {sending : Sending}

/-! ## One move -/

theorem told_suspend :
    topic.told (s.suspend c sending next) ws =
      if sending.frame.socket = ws then
        (topic.shown sending.frame.message).or (topic.told s ws)
      else topic.told s ws := by
  simp only [told, System.suspend, List.reverse_append, List.reverse_cons,
    List.reverse_nil, List.nil_append, List.singleton_append,
    List.findSome?_cons]
  by_cases recipient : sending.frame.socket = ws
  · simp only [if_pos recipient]
    cases topic.shown sending.frame.message <;> rfl
  · simp only [if_neg recipient]

/-- Nothing is told and no promise is lost. -/
theorem Informed.of_same
    (informed : topic.Informed s ws)
    (manager : after.manager = s.manager)
    (sent : after.sent = s.sent)
    (owed : ∀ c, topic.Owes s c ws → ∃ other, topic.Owes after other ws) :
    topic.Informed after ws := by
  rcases informed with told | ⟨c, owes⟩
  · left
    rw [manager, ← told]
    simp only [Topic.told, sent]
  · exact Or.inr (owed c owes)

/-- A debt stays while its coroutine stands where it stands. -/
theorem Owes.of_same
    (owes : topic.Owes s c ws)
    (manager : after.manager = s.manager)
    (stands : after.phase? c = s.phase? c) :
    topic.Owes after c ws := by
  obtain ⟨phase, found, entry, member, promises⟩ := owes
  exact ⟨phase, stands.trans found, entry, member, manager ▸ promises⟩

/-- A coroutine without a promise on its list may change its phase. -/
theorem Informed.enter
    {new : Phase}
    (informed : topic.Informed s ws)
    (silent : ¬topic.Owes s c ws) :
    topic.Informed (s.enter c new) ws := by
  refine informed.of_same rfl rfl fun other owes => ⟨other, ?_⟩
  refine owes.of_same rfl (System.phase?_enter_of_ne ?_ new)
  rintro rfl
  exact silent owes

/-- A send that tells the truth, or after which the truth is still owed. -/
theorem Informed.suspend
    (informed : topic.Informed s ws)
    (audience : topic.Audience s.manager ws)
    (stands : s.phase? c = some phase)
    (found : s.manager.nextSend s.ableton.state phase.todo =
      .ok (some sending))
    (fresh : ∀ value, sending.frame.socket = ws →
      topic.shown sending.frame.message = some value →
      value = topic.current s.manager ws ∨
      (∃ left ∈ sending.rest, topic.Promises s.manager ws left) ∨
      ∃ other, other ≠ c ∧ topic.Owes s other ws) :
    topic.Informed (s.suspend c sending next) ws := by
  have others : ∀ other, other ≠ c → topic.Owes s other ws →
      topic.Informed (s.suspend c sending next) ws := by
    intro other different owes
    exact Or.inr ⟨other, owes.of_same rfl
      (System.phase?_enter_of_ne different _)⟩
  have own : (∃ left ∈ sending.rest, topic.Promises s.manager ws left) →
      topic.Informed (s.suspend c sending next) ws := by
    rintro ⟨left, member, promises⟩
    exact Or.inr ⟨c, _, System.phase?_enter_self _ _, left, member, promises⟩
  have tells : sending.frame.socket = ws →
      topic.shown sending.frame.message =
        some (topic.current s.manager ws) →
      topic.Informed (s.suspend c sending next) ws := by
    intro recipient shows
    left
    rw [told_suspend, if_pos recipient, shows]
    rfl
  rcases informed with told | ⟨other, owes⟩
  · by_cases recipient : sending.frame.socket = ws
    · cases shows : topic.shown sending.frame.message with
      | none =>
          left
          rw [told_suspend, if_pos recipient, shows]
          exact told
      | some value =>
          rcases fresh value recipient shows with rfl | left | ⟨d, ne, owes⟩
          · exact tells recipient shows
          · exact own left
          · exact others d ne owes
    · left
      rw [told_suspend, if_neg recipient]
      exact told
  · by_cases different : other = c
    · subst different
      obtain ⟨stood, found', entry, member, promises⟩ := owes
      obtain rfl := Option.some.inj (found'.symm.trans stands)
      -- The promise sends, is sent, or stands later on the list.
      obtain ⟨skipped, head, later, first, todo, skips, sends, rfl⟩ :=
        ConnectionManager.nextSend_eq_some found
      rw [todo] at member
      rcases List.mem_append.mp member with earlier | rest
      · exact absurd (skips entry earlier) (topic.speaks promises audience)
      · rcases List.mem_cons.mp rest with rfl | late
        · rcases topic.keeps promises audience sends with
            ⟨recipient, shows⟩ | ⟨left, stays, promised⟩
          · exact tells recipient shows
          · exact own ⟨left, List.mem_append_left _ stays, promised⟩
        · exact own ⟨entry, List.mem_append_right _ late, promises⟩
    · exact others other different owes

/-- An operation that promises to tell, or that leaves the topic alone. -/
theorem Informed.operate
    {m : ConnectionManager} {todo : List Todo}
    (changed : (∃ entry ∈ todo, topic.Promises m ws entry) ∨
      (topic.current m ws = topic.current s.manager ws ∧
        (∀ entry, topic.Promises s.manager ws entry →
          topic.Promises m ws entry) ∧
        (topic.told s ws = some (topic.current s.manager ws) ∨
          ∃ other, other ≠ c ∧ topic.Owes s other ws))) :
    topic.Informed ({ s with manager := m }.enter c (.ready todo next))
      ws := by
  rcases changed with ⟨entry, member, promises⟩ | ⟨same, promised, informed⟩
  · exact Or.inr ⟨c, _, System.phase?_enter_self _ _, entry, member, promises⟩
  · rcases informed with told | ⟨other, different, stood, found, entry,
      member, promises⟩
    · exact Or.inl (told.trans (congrArg some same.symm))
    · exact Or.inr ⟨other, stood,
        (System.phase?_enter_of_ne different _).trans found, entry, member,
        promised entry promises⟩

/-! ## One step -/

/-- Every device that is told of the topic is informed of it, unless its own
handler is about to leave. -/
def KeepsInformed (topic : Topic α) (s : System) : Prop :=
  ∀ ws, topic.Audience s.manager ws → ¬s.Leaving ws → topic.Informed s ws

/-- Entering a phase matters to one socket's leaving only. -/
theorem not_leaving_of_enter
    {old new : Phase}
    (stands : s.phase? c = some old)
    (leaves : old.next? = some .leave → new.next? = some .leave)
    (staying : ¬(s.enter c new).Leaving ws) :
    ¬s.Leaving ws := by
  rintro ⟨phase, found, left⟩
  by_cases own : c = .handler ws
  · subst own
    obtain rfl := Option.some.inj (stands.symm.trans found)
    exact staying ⟨new, System.phase?_enter_self _ _, leaves left⟩
  · exact staying ⟨phase,
      (System.phase?_enter_of_ne (Ne.symm own) new).trans found, left⟩

/-- Who performs an operation owes nothing. -/
theorem not_owes_of_performs
    {op : Op}
    (performs : s.Performs c op next) :
    ¬topic.Owes s c ws := by
  rintro ⟨phase, found, entry, member, _⟩
  cases performs with
  | accepted fresh | fired fresh =>
      rw [fresh] at found
      cases found
  | heard stands | released stands =>
      obtain rfl := Option.some.inj (stands.symm.trans found)
      cases member
  | left stands _ empty =>
      obtain rfl := Option.some.inj (stands.symm.trans found)
      rw [empty] at member
      cases member

/-- A task that raises is a full-state broadcast, which promises nothing. -/
theorem not_owes_of_raises
    {number : Nat} {raised : KeyError}
    (fits : s.Fits)
    (stands : s.phase? (.task number) = some phase)
    (raises : s.manager.nextSend s.ableton.state phase.todo =
      .error raised) :
    ¬topic.Owes s (.task number) ws := by
  rintro ⟨stood, found, entry, member, promises⟩
  obtain rfl := Option.some.inj (stands.symm.trans found)
  have plain := fits.phases _ _ stands
  obtain ⟨raising, raisingMember, failed⟩ :=
    ConnectionManager.nextSend_eq_error raises
  have proper := plain.proper raising raisingMember
  refine topic.promises_plain promises
    (plain.uniform ⟨raising, raisingMember, ?_⟩ entry member)
  obtain ⟨socket, _, rfl | rfl⟩ :=
    ConnectionManager.unguarded_of_firstSend_eq_error failed
  · cases proper.1
  · trivial

/-- A send tells what holds now, unless it is part of a loop over a text that
was fixed before. -/
theorem truth_or_deliver
    {value : α}
    (phaseFits : System.PhaseFits c phase)
    (found : s.manager.nextSend s.ableton.state phase.todo =
      .ok (some sending))
    (shows : topic.shown sending.frame.message = some value) :
    value = topic.current s.manager sending.frame.socket ∨
      .deliver sending.frame.socket sending.frame.message ∈ phase.todo := by
  obtain ⟨skipped, entry, later, first, todo, _, sends, rfl⟩ :=
    ConnectionManager.nextSend_eq_some found
  have own : entry ∈ phase.todo := by simp [todo]
  have proper := phaseFits.proper entry own
  have shared : ∀ message : Message, entry = .broadcast message →
      message.IsShared := by
    rintro message rfl
    exact proper
  rcases topic.truthful sends shared shows with
    truth | ⟨socket, message, rfl⟩
  · exact Or.inl truth
  · cases sends
    exact Or.inr own

/-- An operation keeps everybody informed. -/
theorem KeepsInformed.operates
    {op : Op} {m : ConnectionManager} {todo : List Todo}
    (informed : topic.KeepsInformed s)
    (fits : s.Fits)
    (performs : s.Performs c op next)
    (applied : s.manager.apply op = .ok (m, todo)) :
    topic.KeepsInformed
      ({ s with manager := m }.enter c (.ready todo next)) := by
  intro ws audience staying
  have branch := ConnectionManager.transition_of_apply applied
  rcases topic.changes fits.roles (performs.enabled fits) branch audience with
    promised | ⟨before, same, promises⟩ | rfl
  · exact Informed.operate (Or.inl promised)
  · have known : topic.Informed s ws := by
      refine informed ws before ?_
      rintro ⟨phase, found, leaves⟩
      by_cases own : c = .handler ws
      · -- Only a disconnect is performed by a handler that is leaving.
        subst own
        have present : ws ∈ m.clients := topic.connected audience
        rw [ConnectionManager.mem_clients_iff branch] at present
        cases performs with
        | accepted fresh =>
            rw [fresh] at found
            cases found
        | heard stands | released stands =>
            obtain rfl := Option.some.inj (stands.symm.trans found)
            cases leaves
        | left => simp at present
      · exact staying ⟨phase,
          (System.phase?_enter_of_ne (Ne.symm own) _).trans found, leaves⟩
    refine Informed.operate (Or.inr ⟨same, promises, ?_⟩)
    rcases known with told | ⟨other, owes⟩
    · exact Or.inl told
    · refine Or.inr ⟨other, ?_, owes⟩
      rintro rfl
      exact not_owes_of_performs performs owes
  · cases performs with
    | heard _ asked => exact asked.elim
    | released => exact absurd ⟨_, System.phase?_enter_self _ _, rfl⟩ staying

/-- Continuations keep everybody informed. -/
theorem KeepsInformed.continuation
    {actor : Option Coroutine}
    (informed : topic.KeepsInformed s)
    (fits : s.Fits)
    (moved : System.Continuation actor s after) :
    topic.KeepsInformed after := by
  intro ws audience staying
  cases moved with
  | drives manager coroutines _ sent _ =>
      have samePhase : ∀ c, after.phase? c = s.phase? c := by
        intro c
        simp only [System.phase?, coroutines]
      rw [manager] at audience
      refine (informed ws audience ?_).of_same manager sent fun c owes =>
        ⟨c, owes.of_same manager (samePhase c)⟩
      rintro ⟨phase, found, leaves⟩
      exact staying ⟨phase, (samePhase _).trans found, leaves⟩
  | @waits time =>
      have enabled : s.manager.Enabled (.wait time) := trivial
      rcases topic.changes fits.roles enabled .waits audience with
        ⟨_, member, _⟩ | ⟨before, same, promised⟩ | impossible
      · cases member
      · rcases informed ws before staying with told | ⟨c, owes⟩
        · exact Or.inl (told.trans (congrArg some same.symm))
        · obtain ⟨phase, found, entry, member, promises⟩ := owes
          exact Or.inr ⟨c, phase, found, entry, member,
            promised entry promises⟩
      · cases impossible
  | @spawns entry =>
      refine (informed ws audience ?_).of_same rfl rfl ?_
      · rintro ⟨phase, found, leaves⟩
        exact staying ⟨phase, fits.phase?_createTask found, leaves⟩
      · rintro c ⟨phase, found, owes⟩
        exact ⟨c, phase, fits.phase?_createTask found, owes⟩
  | operates _ performs applied =>
      exact informed.operates fits performs applied ws audience staying
  | begins _ stands =>
      refine (informed ws audience
        (not_leaving_of_enter stands ?_ staying)).enter ?_
      · intro impossible
        cases impossible
      · rintro ⟨phase, found, entry, member, _⟩
        obtain rfl := Option.some.inj (stands.symm.trans found)
        cases member
  | @sends c todo next sending _ stands fresh found =>
      have stays : ¬s.Leaving ws := by
        refine not_leaving_of_enter stands ?_ staying
        exact id
      refine (informed ws audience stays).suspend audience stands found ?_
      intro value recipient shows
      left
      rcases truth_or_deliver (fits.phases _ _ stands) found shows with
        truth | frozen
      · rw [truth, ← recipient]
      · exact absurd frozen (fresh _ _)
  | @exhausts c phase next _ stands goesOn found =>
      refine (informed ws audience (not_leaving_of_enter stands
        goesOn.symm.trans staying)).enter ?_
      rintro ⟨stood, found', entry, member, promises⟩
      obtain rfl := Option.some.inj (stands.symm.trans found')
      exact topic.speaks promises audience
        (ConnectionManager.nextSend_eq_none found entry member)
  | rests _ stands resting =>
      refine (informed ws audience (not_leaving_of_enter stands ?_
        staying)).enter ?_
      · intro impossible
        cases resting <;> cases impossible
      · rintro ⟨phase, found, entry, member, _⟩
        obtain rfl := Option.some.inj (stands.symm.trans found)
        cases member
  | @fails number phase raised _ stands raises =>
      have task := (fits.phases _ _ stands).task number rfl
      refine Informed.of_same ((informed ws audience (not_leaving_of_enter
        stands ?_ staying)).enter (not_owes_of_raises fits stands raises))
        rfl rfl fun c owes => ⟨c, owes⟩
      rcases task with rfl | finishes
      · intro impossible
        cases impossible
      · simp [finishes]

theorem KeepsInformed.continues
    {actor : Option Coroutine}
    (informed : topic.KeepsInformed s)
    (fits : s.Fits)
    (moved : System.Continues actor s after) :
    topic.KeepsInformed after := by
  induction moved with
  | refl => exact informed
  | tail earlier step inductionHypothesis =>
      exact inductionHypothesis.continuation (fits.continues earlier) step

/-- The step sends a socket a text that no longer holds, and nobody still has
to tell that socket what does. -/
def Outdates (topic : Topic α) (s : System) (event : System.Event) : Prop :=
  ∃ c raised phase sending value,
    event = .resume c raised ∧ ¬phase.Unwinds raised ∧
    s.phase? c = some phase ∧
    s.manager.nextSend s.ableton.state phase.todo = .ok (some sending) ∧
    topic.shown sending.frame.message = some value ∧
    topic.Audience s.manager sending.frame.socket ∧
    ¬s.Leaving sending.frame.socket ∧
    value ≠ topic.current s.manager sending.frame.socket ∧
    (∀ left ∈ sending.rest,
      ¬topic.Promises s.manager sending.frame.socket left) ∧
    ∀ other, other ≠ c → ¬topic.Owes s other sending.frame.socket

/-- Promises that a handler drops are superfluous or made again: a socket whose
handler leaves before its to-do list is done loses nobody a promise. -/
def Repeats (topic : Topic α) (s : System) (event : System.Event) : Prop :=
  ∀ ws target rest next m todo old,
    event = .resume (.handler ws) true →
    s.phase? (.handler ws) = some (.sending target false rest next) →
    s.manager.apply (.disconnect ws) = .ok (m, todo) →
    topic.Audience s.manager old → topic.Audience m old →
    ¬s.Leaving old →
    (∃ entry ∈ todo, topic.Promises m old entry) ∨
    topic.told s old = some (topic.current s.manager old) ∨
    ∃ other, other ≠ .handler ws ∧ topic.Owes s other old

/-- An opening that neither outdates nor drops anything keeps everybody
informed. -/
theorem KeepsInformed.opening
    {event : System.Event}
    (informed : topic.KeepsInformed s)
    (fits : s.Fits)
    (opened : System.Opening event s after)
    (fresh : ¬topic.Outdates s event)
    (repeated : topic.Repeats s event) :
    topic.KeepsInformed after := by
  intro ws audience staying
  cases opened with
  | rests => exact informed ws audience staying
  | @wakes c raised phase next sending resumed caught stands goesOn found =>
      have stays := not_leaving_of_enter stands goesOn.symm.trans staying
      refine (informed ws audience stays).suspend audience stands found ?_
      rintro value rfl shows
      by_contra stale
      obtain ⟨differs, rest⟩ := not_or.mp stale
      obtain ⟨own, others⟩ := not_or.mp rest
      refine fresh ⟨c, raised, phase, sending, value, resumed, caught, stands,
        found, shows, audience, stays, differs, ?_, ?_⟩
      · intro left member promises
        exact own ⟨left, member, promises⟩
      · intro other different owes
        exact others ⟨other, different, owes⟩
  | @drops owner target rest next m todo resumed stands applied =>
      have branch := ConnectionManager.transition_of_apply applied
      have receives := (fits.phases _ _ stands).unguarded _ _ _ rfl
      have enabled : s.manager.Enabled (.disconnect owner) :=
        fits.connected stands (by simp [Phase.Live, receives])
      rcases topic.changes fits.roles enabled branch audience with
        promised | ⟨before, same, promises⟩ | impossible
      · exact Informed.operate (Or.inl promised)
      · have stays : ¬s.Leaving ws := not_leaving_of_enter stands
          (by simp [Phase.next?, receives]) staying
        rcases repeated owner target rest next m todo ws resumed stands
            applied before audience stays with promised | known
        · exact Informed.operate (Or.inl promised)
        · exact Informed.operate (Or.inr ⟨same, promises, known⟩)
      · cases impossible

/-- The step rule. -/
theorem KeepsInformed.exec
    {event : System.Event}
    (informed : topic.KeepsInformed s)
    (fits : s.Fits)
    (taken : s.exec event = some after)
    (fresh : ¬topic.Outdates s event)
    (repeated : topic.Repeats s event) :
    topic.KeepsInformed after := by
  obtain ⟨middle, opened, moved⟩ := System.moves_of_exec fits taken
  exact (informed.opening fits opened fresh repeated).continues
    (fits.opening opened) moved

end Topic
end AbletonTracks
