import AbletonTracks.Manager.Sending
import AbletonTracks.Server.Defs

/-!
# The next send of a coroutine

Which entry of a to-do list sends next, which entries send nothing, and which
raise.  `nextSend_eq_some` is the inversion rule that later results use; they
look at one entry's `firstSend` only.
-/

namespace AbletonTracks

open Library

/-- The role a message tells its device. -/
def Message.role? : Message → Option Role
  | .state _ role _ _ _ => some role
  | _ => none

theorem Message.role?_of_snapshotFor
    {m : ConnectionManager} {app : AppState} {ws : WebSocket}
    {roleReason : Option RoleReason} {message : Message}
    (built : m.snapshotFor app ws roleReason = .ok message) :
    message.role? = some (m.roleOf ws) := by
  obtain ⟨client, _, rfl⟩ := ConnectionManager.snapshotFor_eq_ok built
  rfl

namespace ConnectionManager

variable {m : ConnectionManager} {app : AppState} {todo : List Todo}
  {entry : Todo} {sending : Sending}

theorem mem_targets {ws : WebSocket} : ws ∈ m.targets ↔ ws ∈ m.clients := by
  rw [targets, mem_sortedBy, Dict.mem_iff_mem_keys]

theorem nodup_targets (m : ConnectionManager) : m.targets.Nodup :=
  (sortedBy_perm _ _).nodup_iff.mpr m.clients.nodup_keys

/-! ## One entry -/

/-- Every way in which an entry makes its first send, with what it leaves of
the entry. -/
inductive FirstSend (m : ConnectionManager) (app : AppState) :
    Todo → Sending → Prop
  | push {ws : WebSocket} {reason : RoleReason} {message : Message} :
      m.snapshotFor app ws (some reason) = .ok message →
      FirstSend m app (.push ws reason) ⟨⟨ws, message⟩, true, []⟩
  | sendState {ws : WebSocket} {message : Message} :
      m.snapshotFor app ws none = .ok message →
      FirstSend m app (.sendState ws) ⟨⟨ws, message⟩, false, []⟩
  | sendSnapshot {ws : WebSocket} {message : Message} :
      m.snapshotFor app ws none = .ok message →
      FirstSend m app (.sendSnapshot ws) ⟨⟨ws, message⟩, true, []⟩
  | broadcastFullState
      {ws : WebSocket} {others : List WebSocket} {message : Message} :
      m.targets = ws :: others →
      m.snapshotFor app ws none = .ok message →
      FirstSend m app .broadcastFullState
        ⟨⟨ws, message⟩, true, others.map Todo.sendSnapshot⟩
  | broadcastHandoff {ws : WebSocket} {others : List WebSocket} :
      m.clients.keys.filter m.supportsHandoff = ws :: others →
      FirstSend m app .broadcastHandoff
        ⟨⟨ws, m.handoffMessage⟩, true,
          others.map fun other => .deliver other m.handoffMessage⟩
  | broadcastRoster {ws : WebSocket} {others : List WebSocket} :
      m.targets = ws :: others →
      FirstSend m app .broadcastRoster
        ⟨⟨ws, .roster m.roster⟩, true,
          others.map fun other => .deliver other (.roster m.roster)⟩
  | broadcast
      {ws : WebSocket} {others : List WebSocket} {message : Message} :
      m.targets = ws :: others →
      FirstSend m app (.broadcast message)
        ⟨⟨ws, message⟩, true, others.map fun other => .deliver other message⟩
  | deliver {ws : WebSocket} {message : Message} :
      FirstSend m app (.deliver ws message) ⟨⟨ws, message⟩, true, []⟩
  | sendHandoff {ws : WebSocket} :
      m.supportsHandoff ws = true →
      FirstSend m app (.sendHandoff ws) ⟨⟨ws, m.handoffMessage⟩, true, []⟩
  | sendResult
      {ws : WebSocket} {requestId : Option String} {result : RequestResult}
      {reason : ResultReason} :
      m.supportsHandoff ws = true →
      FirstSend m app (.sendResult ws requestId result reason)
        ⟨⟨ws, .controlRequestResult requestId result reason⟩, true, []⟩
  | sendReleased {ws : WebSocket} :
      FirstSend m app (.sendReleased ws) ⟨⟨ws, .controlReleased⟩, true, []⟩

theorem deliverAll_eq_some
    {message : Message}
    {sockets : List WebSocket}
    (delivered : deliverAll message sockets = some sending) :
    ∃ ws others, sockets = ws :: others ∧
      sending = ⟨⟨ws, message⟩, true,
        others.map fun other => .deliver other message⟩ := by
  cases sockets with
  | nil => cases delivered
  | cons ws others => exact ⟨ws, others, rfl, (Option.some.inj delivered).symm⟩

theorem firstSend_eq_some
    (found : m.firstSend app entry = .ok (some sending)) :
    m.FirstSend app entry sending := by
  have fromSnapshot : ∀ {ws reason guarded rest},
      ((m.snapshotFor app ws reason).bind fun message =>
        .ok (some ⟨⟨ws, message⟩, guarded, rest⟩)) = .ok (some sending) →
      ∃ message, m.snapshotFor app ws reason = .ok message ∧
        sending = ⟨⟨ws, message⟩, guarded, rest⟩ := by
    intro ws reason guarded rest built
    cases taken : m.snapshotFor app ws reason with
    | error raised =>
        rw [taken] at built
        cases built
    | ok message =>
        rw [taken] at built
        exact ⟨message, rfl, (Option.some.inj (Except.ok.inj built)).symm⟩
  cases entry with
  | push ws reason =>
      simp only [firstSend] at found
      split at found
      · obtain ⟨message, built, rfl⟩ := fromSnapshot found
        exact .push built
      · cases found
  | sendState ws =>
      obtain ⟨message, built, rfl⟩ := fromSnapshot found
      exact .sendState built
  | sendSnapshot ws =>
      obtain ⟨message, built, rfl⟩ := fromSnapshot found
      exact .sendSnapshot built
  | broadcastFullState =>
      simp only [firstSend] at found
      split at found
      · cases found
      · rename_i ws others recipients
        obtain ⟨message, built, rfl⟩ := fromSnapshot found
        exact .broadcastFullState recipients built
  | broadcastHandoff =>
      obtain ⟨ws, others, recipients, rfl⟩ :=
        deliverAll_eq_some (Except.ok.inj found)
      exact .broadcastHandoff recipients
  | broadcastRoster =>
      obtain ⟨ws, others, recipients, rfl⟩ :=
        deliverAll_eq_some (Except.ok.inj found)
      exact .broadcastRoster recipients
  | broadcast message =>
      obtain ⟨ws, others, recipients, rfl⟩ :=
        deliverAll_eq_some (Except.ok.inj found)
      exact .broadcast recipients
  | deliver ws message =>
      obtain rfl := Option.some.inj (Except.ok.inj found)
      exact .deliver
  | sendHandoff ws =>
      simp only [firstSend] at found
      split at found
      · rename_i capable
        obtain rfl := Option.some.inj (Except.ok.inj found)
        exact .sendHandoff capable
      · cases found
  | sendResult ws requestId result reason =>
      simp only [firstSend] at found
      split at found
      · rename_i capable
        obtain rfl := Option.some.inj (Except.ok.inj found)
        exact .sendResult capable
      · cases found
  | sendReleased ws =>
      obtain rfl := Option.some.inj (Except.ok.inj found)
      exact .sendReleased

/-- The two entries that look a socket up without a guard. -/
def Unguarded (ws : WebSocket) (entry : Todo) : Prop :=
  entry = .sendState ws ∨ entry = .sendSnapshot ws

/-- An entry raises only if it looks up a socket that has left. -/
theorem unguarded_of_firstSend_eq_error
    {raised : KeyError}
    (failed : m.firstSend app entry = .error raised) :
    ∃ ws, ws ∉ m.clients ∧ Unguarded ws entry := by
  cases entry with
  | push ws reason =>
      simp only [firstSend] at failed
      split at failed
      · rename_i present
        obtain ⟨message, built⟩ := snapshotFor_of_mem present app (some reason)
        simp only [built, bind, Except.bind] at failed
        cases failed
      · cases failed
  | sendState ws | sendSnapshot ws =>
      refine ⟨ws, fun present => ?_, by simp [Unguarded]⟩
      obtain ⟨message, built⟩ := snapshotFor_of_mem present app none
      simp only [firstSend, built, bind, Except.bind] at failed
      cases failed
  | broadcastFullState =>
      simp only [firstSend] at failed
      split at failed
      · cases failed
      · rename_i ws others recipients
        have present : ws ∈ m.clients :=
          mem_targets.mp (recipients ▸ List.mem_cons_self)
        obtain ⟨message, built⟩ := snapshotFor_of_mem present app none
        simp only [built, bind, Except.bind] at failed
        cases failed
  | broadcastHandoff | broadcastRoster | sendHandoff | sendResult
  | sendReleased | broadcast | deliver =>
      cases failed

/-- What a first send leaves of its entry: further sends of the same text, or
further snapshots of a full-state broadcast. -/
theorem FirstSend.mem_rest
    (sends : m.FirstSend app entry sending)
    {left : Todo}
    (member : left ∈ sending.rest) :
    (∃ ws, left = .deliver ws m.handoffMessage ∧
        entry = .broadcastHandoff) ∨
      (∃ ws, left = .deliver ws (.roster m.roster) ∧
        entry = .broadcastRoster) ∨
      (∃ ws message, left = .deliver ws message ∧
        entry = .broadcast message) ∨
      ∃ ws, left = .sendSnapshot ws ∧ entry = .broadcastFullState := by
  cases sends with
  | broadcastHandoff =>
      obtain ⟨ws, _, rfl⟩ := List.mem_map.mp member
      exact Or.inl ⟨ws, rfl, rfl⟩
  | broadcastRoster =>
      obtain ⟨ws, _, rfl⟩ := List.mem_map.mp member
      exact Or.inr (Or.inl ⟨ws, rfl, rfl⟩)
  | broadcast =>
      obtain ⟨ws, _, rfl⟩ := List.mem_map.mp member
      exact Or.inr (Or.inr (Or.inl ⟨ws, _, rfl, rfl⟩))
  | broadcastFullState =>
      obtain ⟨ws, _, rfl⟩ := List.mem_map.mp member
      exact Or.inr (Or.inr (Or.inr ⟨ws, rfl, rfl⟩))
  | _ => cases member

/-- Only a handler's own state is sent without a guard. -/
theorem FirstSend.eq_sendState
    (sends : m.FirstSend app entry sending)
    (raises : sending.guarded = false) :
    entry = .sendState sending.frame.socket := by
  cases sends with
  | sendState => rfl
  | _ => cases raises

/-! ## One to-do list -/

/-- The next send is the first send of some entry, and no entry before it
sends anything. -/
theorem nextSend_eq_some
    (found : m.nextSend app todo = .ok (some sending)) :
    ∃ skipped entry later first, todo = skipped ++ entry :: later ∧
      (∀ other ∈ skipped, m.firstSend app other = .ok none) ∧
      m.FirstSend app entry first ∧
      sending = { first with rest := first.rest ++ later } := by
  induction todo with
  | nil => simp [nextSend] at found
  | cons head rest inductionHypothesis =>
      simp only [nextSend] at found
      split at found
      · cases found
      · rename_i silent
        obtain ⟨skipped, entry, later, first, rfl, skips, sends, same⟩ :=
          inductionHypothesis found
        refine ⟨head :: skipped, entry, later, first, rfl, ?_, sends, same⟩
        intro other member
        rcases List.mem_cons.mp member with rfl | earlier
        · exact silent
        · exact skips other earlier
      · rename_i first sends
        simp only [Except.ok.injEq, Option.some.injEq] at found
        exact ⟨[], head, rest, first, rfl, by simp, firstSend_eq_some sends,
          found.symm⟩

/-- A to-do list without a next send has no entry that sends. -/
theorem nextSend_eq_none
    (nothing : m.nextSend app todo = .ok none) :
    ∀ entry ∈ todo, m.firstSend app entry = .ok none := by
  induction todo with
  | nil => simp
  | cons head rest inductionHypothesis =>
      simp only [nextSend] at nothing
      split at nothing
      · cases nothing
      · rename_i silent
        intro entry member
        rcases List.mem_cons.mp member with rfl | later
        · exact silent
        · exact inductionHypothesis nothing entry later
      · cases nothing

/-- Running a to-do list raises only if one of its entries does. -/
theorem nextSend_eq_error
    {raised : KeyError}
    (failed : m.nextSend app todo = .error raised) :
    ∃ entry ∈ todo, m.firstSend app entry = .error raised := by
  induction todo with
  | nil => simp [nextSend] at failed
  | cons head rest inductionHypothesis =>
      simp only [nextSend] at failed
      split at failed
      · rename_i raises
        exact ⟨head, List.mem_cons_self, raises.trans failed⟩
      · obtain ⟨entry, member, raises⟩ := inductionHypothesis failed
        exact ⟨entry, List.mem_cons_of_mem head member, raises⟩
      · cases failed

end ConnectionManager
end AbletonTracks
