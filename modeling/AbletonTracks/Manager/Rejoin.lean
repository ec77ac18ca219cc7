import AbletonTracks.Manager.Hold

/-!
# Rejoining as an observer

A device that was an observer before its socket dropped says so when it
connects again, and is kept from an empty slot.  `_assign_on_connect` believes
only a device with a client id: one without takes the empty slot, whatever it
was before and whatever protocol it speaks.
-/

namespace AbletonTracks

open Library

namespace ConnectionManager

variable {m after : ConnectionManager} {ws : WebSocket}
  {params : QueryParams} {connectionId : String}

/-- The install of the socket holds control already. -/
def OwnsControl (m : ConnectionManager) (params : QueryParams) : Prop :=
  ∃ a ∈ ClientId.orNone params.clientId, m.Holds a

instance (m : ConnectionManager) (params : QueryParams) :
    Decidable (m.OwnsControl params) :=
  inferInstanceAs (Decidable (∃ a ∈ ClientId.orNone params.clientId, _))

/-- The slot is empty, and the socket comes without a client id. -/
def SlotOpen (m : ConnectionManager) (params : QueryParams) : Prop :=
  ClientId.orNone params.clientId = none ∧ m.primary = none ∧
    m.reservedFor = none

instance (m : ConnectionManager) (params : QueryParams) :
    Decidable (m.SlotOpen params) :=
  inferInstanceAs (Decidable (_ ∧ _ ∧ _))

/-- A device that speaks protocol 2 keeps its client id. -/
theorem clientId_newClient
    (capable : handoffProtocol ≤ (newClient params connectionId).protocol) :
    (newClient params connectionId).clientId =
      ClientId.orNone params.clientId :=
  if_pos capable

/-- The other sockets keep their installs when one joins. -/
theorem carries_of_join
    {old : WebSocket} {oldClient : Client} {a : ClientId}
    (fresh : ws ∉ m.clients)
    (member : old ∈ m.clients)
    (found : (m.join ws params connectionId).clients.get? old =
      some oldClient)
    (own : oldClient.clientId = some a) :
    m.Carries old a := by
  have different : old ≠ ws := by
    rintro rfl
    exact fresh member
  rw [join, Dict.get?_insert_of_ne _ different] at found
  exact ⟨oldClient, found, own⟩

/-- An empty slot that is not held owns no install. -/
theorem not_ownsControl_of_slotOpen
    (isOpen : m.SlotOpen params) : ¬m.OwnsControl params := by
  rintro ⟨a, own, _⟩
  rw [isOpen.1] at own
  cases own

/-- An observer that connects takes control only where its install has it
already, or the slot is open to it. -/
theorem primary_of_connect
    (fits : m.RolesFit)
    (capable : handoffProtocol ≤ (newClient params connectionId).protocol)
    (observer : params.prevRole = some "observer")
    (taken : m.exec (.connect ws params connectionId) = some after)
    (promoted : after.primary = some ws) :
    m.OwnsControl params ∨ m.SlotOpen params := by
  obtain ⟨fresh, todo, _, branch⟩ := transition_of_exec taken
  have own := clientId_newClient capable
  cases branch with
  | reclaims known reserved =>
      exact Or.inl ⟨_, own ▸ known, Or.inr reserved⟩
  | supersedes known _ holder found sameInstall =>
      have carries := carries_of_join fresh (fits.connected _ holder) found
        sameInstall
      exact Or.inl ⟨_, own ▸ known, Or.inl ⟨_, holder, carries⟩⟩
  | takesSlot empty free allowed =>
      refine Or.inr ⟨?_, empty, free⟩
      by_contra known
      exact allowed ⟨own ▸ known, observer⟩
  | observes =>
      exact absurd (fits.connected ws promoted) fresh

/-- An open slot goes to whoever connects. -/
theorem primary_of_slotOpen
    (isOpen : m.SlotOpen params)
    (capable : handoffProtocol ≤ (newClient params connectionId).protocol)
    (taken : m.exec (.connect ws params connectionId) = some after) :
    after.primary = some ws := by
  obtain ⟨_, todo, _, branch⟩ := transition_of_exec taken
  obtain ⟨anonymous, empty, free⟩ := isOpen
  have own := (clientId_newClient capable).trans anonymous
  cases branch with
  | reclaims | supersedes | takesSlot => rfl
  | observes _ notTaken =>
      refine absurd ⟨empty, free, ?_⟩ notTaken
      rintro ⟨known, _⟩
      exact known own

/-- A device that was an observer gets control by connecting only if its
install has it already: exactly when it brings a client id, or the slot is not
empty. -/
theorem ownsControl_iff_not_slotOpen
    (reachable : Reachable exec {} m)
    (capable : handoffProtocol ≤ (newClient params connectionId).protocol)
    (observer : params.prevRole = some "observer")
    (taken : m.exec (.connect ws params connectionId) = some after) :
    (after.primary = some ws → m.OwnsControl params) ↔
      ¬m.SlotOpen params := by
  constructor
  · intro owns isOpen
    exact not_ownsControl_of_slotOpen isOpen
      (owns (primary_of_slotOpen isOpen capable taken))
  · intro guarded promoted
    exact (primary_of_connect (fits_of_reachable reachable).1 capable observer
      taken promoted).resolve_right guarded

/-- The primary's socket drops, and its next one claims to have been an
observer: the slot is held for its install. -/
theorem ownsControl_iff_not_slotOpen_dropped :
    ∃ m after,
      execAll exec {} [.connect ⟨0⟩ ⟨some "2", some "stage", none⟩ "c0",
        .disconnect ⟨0⟩] = some m ∧
      m.exec (.connect ⟨1⟩ ⟨some "2", some "stage", some "observer"⟩ "c1") =
        some after ∧
      after.primary = some ⟨1⟩ ∧
      m.OwnsControl ⟨some "2", some "stage", some "observer"⟩ := by
  have runs : ((execAll exec {} [
      .connect ⟨0⟩ ⟨some "2", some "stage", none⟩ "c0",
      .disconnect ⟨0⟩]).bind fun m =>
        (m.exec (.connect ⟨1⟩ ⟨some "2", some "stage", some "observer"⟩
          "c1")).map fun after =>
            decide (m.reservedFor ≠ none ∧ after.primary = some ⟨1⟩)) =
      some true := by
    decide +kernel
  obtain ⟨m, executed, rest⟩ := Option.bind_eq_some_iff.mp runs
  obtain ⟨after, taken, facts⟩ := Option.map_eq_some_iff.mp rest
  obtain ⟨held, promoted⟩ := of_decide_eq_true facts
  have guarded : ¬m.SlotOpen ⟨some "2", some "stage", some "observer"⟩ :=
    fun isOpen => held isOpen.2.2
  exact ⟨m, after, executed, taken, promoted,
    (ownsControl_iff_not_slotOpen (reachable_of_execAll executed)
      (by decide +kernel) rfl taken).mpr guarded promoted⟩

/-- An observer without a client id leaves, and so does the primary.  Once the
slot is no longer held, the observer gets control by being back first. -/
theorem not_ownsControl_of_anonymousObserver :
    ∃ m after,
      execAll exec {} [.connect ⟨0⟩ ⟨some "2", some "stage", none⟩ "c0",
        .connect ⟨1⟩ ⟨some "2", none, none⟩ "c1", .disconnect ⟨1⟩,
        .disconnect ⟨0⟩, .wait 15, .fire 0] = some m ∧
      handoffProtocol ≤
        (newClient ⟨some "2", none, some "observer"⟩ "c2").protocol ∧
      m.exec (.connect ⟨2⟩ ⟨some "2", none, some "observer"⟩ "c2") =
        some after ∧
      after.primary = some ⟨2⟩ ∧
      ¬m.OwnsControl ⟨some "2", none, some "observer"⟩ := by
  have runs : ((execAll exec {} [
      .connect ⟨0⟩ ⟨some "2", some "stage", none⟩ "c0",
      .connect ⟨1⟩ ⟨some "2", none, none⟩ "c1", .disconnect ⟨1⟩,
      .disconnect ⟨0⟩, .wait 15, .fire 0]).bind fun m =>
        (m.exec (.connect ⟨2⟩ ⟨some "2", none, some "observer"⟩ "c2")).map
          fun after => decide (after.primary = some ⟨2⟩ ∧
            ¬m.OwnsControl ⟨some "2", none, some "observer"⟩)) =
      some true := by
    decide +kernel
  obtain ⟨m, executed, rest⟩ := Option.bind_eq_some_iff.mp runs
  obtain ⟨after, taken, facts⟩ := Option.map_eq_some_iff.mp rest
  obtain ⟨promoted, notOwned⟩ := of_decide_eq_true facts
  exact ⟨m, after, executed, by decide +kernel, taken, promoted, notOwned⟩

end ConnectionManager
end AbletonTracks
