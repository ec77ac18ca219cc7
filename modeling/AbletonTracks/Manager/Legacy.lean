import AbletonTracks.Manager.Sending

/-!
# Legacy clients keep the original rules

The original server knew the connected sockets and the primary, and nothing
else.  `Original` is that machine, stated on its own; `legacy_simulates` shows
that the manager follows it as long as every socket is legacy.  In runs of any
kind, a legacy socket is never sent a message of protocol 2.
-/

namespace AbletonTracks

open Library

/-! ## The original server -/

/-- The two fields of the original server. -/
structure Original where
  sockets : List WebSocket := []
  primary : Option WebSocket := none
  deriving DecidableEq

namespace Original

/-- A connecting socket becomes primary iff there is none; the primary's
disconnect or release empties the slot; everything else changes nothing. -/
def step (original : Original) : Op → Original
  | .connect ws _ _ =>
      { sockets := original.sockets ++ [ws]
        primary := if original.primary = none then some ws
          else original.primary }
  | .disconnect ws =>
      { sockets := original.sockets.filter fun other => other ≠ ws
        primary := if original.primary = some ws then none
          else original.primary }
  | .release ws =>
      { original with
        primary := if original.primary = some ws then none
          else original.primary }
  | _ => original

/-- The state after a list of operations. -/
def run (original : Original) (ops : List Op) : Original :=
  ops.foldl step original

theorem run_append_singleton
    (original : Original)
    (ops : List Op)
    (op : Op) :
    original.run (ops ++ [op]) = (original.run ops).step op := by
  simp [run]

end Original

/-- The protocol parameter is missing, unparsable or below 2. -/
def QueryParams.Legacy (params : QueryParams) : Prop :=
  ∀ text, params.protocol = some text →
    ∀ protocol, Text.int? text = some protocol → protocol < handoffProtocol

namespace ConnectionManager

variable {m after : ConnectionManager} {op : Op} {todo : List Todo}

/-- What the original server would remember. -/
def original (m : ConnectionManager) : Original :=
  ⟨m.clients.keys, m.primary⟩

/-- If the operation connects a socket, it is a legacy one. -/
def LegacyOp : Op → Prop
  | .connect _ params _ => params.Legacy
  | _ => True

/-- Nothing of the handoff exists: no reservation, no request, no timer, and
only legacy clients, which carry no install id. -/
structure Quiet (m : ConnectionManager) : Prop where
  legacy : ∀ ws client, m.clients.get? ws = some client →
    client.protocol < handoffProtocol ∧ client.clientId = none
  unreserved : m.reservedFor = none
  untimed : m.reserveTimer = none
  idle : m.request = none
  timers : m.loop.timers = []

theorem quiet_initial : Quiet {} where
  legacy := by simp
  unreserved := rfl
  untimed := rfl
  idle := rfl
  timers := rfl

/-- A legacy socket's client is legacy and carries no install id. -/
theorem newClient_legacy
    {params : QueryParams}
    (legacy : params.Legacy)
    (connectionId : String) :
    (newClient params connectionId).protocol < handoffProtocol ∧
      (newClient params connectionId).clientId = none := by
  have below : (Text.int? (params.protocol.getD "1")).getD 1 <
      handoffProtocol := by
    cases given : params.protocol with
    | none => decide
    | some text =>
        rw [Option.getD_some]
        cases parsed : Text.int? text with
        | none => decide
        | some protocol => exact legacy text given protocol parsed
  refine ⟨below, ?_⟩
  simp only [newClient]
  rw [if_neg (not_le.mpr below)]

namespace Quiet

theorem supportsHandoff_eq_false
    (quiet : m.Quiet)
    (ws : WebSocket) :
    m.supportsHandoff ws = false := by
  rw [← Bool.not_eq_true]
  intro capable
  obtain ⟨client, found, modern⟩ := supportsHandoff_iff.mp capable
  exact absurd modern (not_le.mpr (quiet.legacy ws client found).1)

theorem timer?_eq_none (quiet : m.Quiet) (task : TaskId) :
    m.loop.timer? task = none := by
  simp [EventLoop.timer?, quiet.timers]

theorem clientId_ne
    (quiet : m.Quiet)
    {ws : WebSocket}
    {client : Client}
    (found : m.clients.get? ws = some client)
    (a : ClientId) :
    client.clientId ≠ some a := by
  simp [(quiet.legacy ws client found).2]

/-- Without a request, a departing socket takes nothing along. -/
theorem forget_eq (quiet : m.Quiet) (ws : WebSocket) :
    m.forget ws = { m with clients := m.clients.erase ws } := by
  simp [forget, quiet.idle]

theorem clearRequest_eq (quiet : m.Quiet) : m.clearRequest = m := by
  obtain ⟨clients, primary, reservedFor, reserveTimer, request, loop⟩ := m
  obtain rfl : request = none := quiet.idle
  rfl

/-- A legacy operation leaves everything but the two original fields
untouched, and those follow the original rules. -/
theorem transition
    (quiet : m.Quiet)
    (legacy : LegacyOp op)
    (enabled : m.Enabled op)
    (branch : m.Transition op after todo) :
    after.Quiet ∧ after.original = m.original.step op := by
  have legacyAfter : ∀ ws client, after.clients.get? ws = some client →
      client.protocol < handoffProtocol ∧ client.clientId = none := by
    intro ws client found
    rcases client_origin branch found with
      ⟨old, stored, sameId, protocol⟩ | ⟨params, connectionId, rfl, rfl⟩
    · rw [sameId, protocol]
      exact quiet.legacy ws old stored
    · exact newClient_legacy legacy connectionId
  have unreserved := quiet.unreserved
  have connects : ∀ {ws : WebSocket}, ws ∉ m.clients →
      ∀ client, (m.clients.insert ws client).keys = m.clients.keys ++ [ws] :=
    fun fresh client => Dict.keys_insert_of_not_mem fresh client
  cases branch with
  | reclaims carries | supersedes carries =>
      rw [(newClient_legacy legacy _).2] at carries
      cases carries
  | takesSlot empty =>
      refine ⟨⟨legacyAfter, unreserved, quiet.untimed, quiet.idle,
        quiet.timers⟩, ?_⟩
      simp [original, Original.step, join, connects enabled, empty]
  | observes _ taken =>
      have present : m.primary ≠ none := by
        intro empty
        refine taken ⟨empty, unreserved, ?_⟩
        rw [(newClient_legacy legacy _).2]
        simp
      refine ⟨⟨legacyAfter, unreserved, quiet.untimed, quiet.idle,
        quiet.timers⟩, ?_⟩
      simp [original, Original.step, join, connects enabled, present]
  | renames =>
      refine ⟨⟨legacyAfter, unreserved, quiet.untimed, quiet.idle,
        quiet.timers⟩, ?_⟩
      simp [original, Original.step]
  | absent missing =>
      exact absurd enabled (Dict.get?_eq_none_iff.mp missing)
  | leaves _ notPrimary =>
      rw [quiet.forget_eq] at legacyAfter ⊢
      refine ⟨⟨legacyAfter, unreserved, quiet.untimed, quiet.idle,
        quiet.timers⟩, ?_⟩
      simp [original, Original.step, Dict.keys_erase, notPrimary]
  | handsBack stored _ carries | reserves stored _ carries =>
      exact absurd carries (quiet.clientId_ne stored _)
  | empties stored primary =>
      rw [quiet.forget_eq] at legacyAfter ⊢
      refine ⟨⟨legacyAfter, unreserved, quiet.untimed, quiet.idle,
        quiet.timers⟩, ?_⟩
      simp [original, Original.step, Dict.keys_erase, primary]
  | requestTakesSlot capable =>
      rw [quiet.supportsHandoff_eq_false] at capable
      cases capable
  | requestPends _ capable =>
      rw [quiet.supportsHandoff_eq_false] at capable
      cases capable
  | requestRepeated pending | requestBusy pending | withdraws pending
  | accepts _ pending | denies _ pending | releasesTo pending
  | slotGranted _ _ _ _ pending | requestExpires _ _ pending =>
      rw [quiet.idle] at pending
      cases pending
  | grants _ _ _ found _ capable =>
      exact absurd capable (not_le.mpr (quiet.legacy _ _ found).1)
  | releases =>
      rw [quiet.clearRequest_eq] at legacyAfter ⊢
      refine ⟨⟨legacyAfter, unreserved, quiet.untimed, quiet.idle,
        quiet.timers⟩, ?_⟩
      have primary : m.primary = some _ := enabled
      simp [original, Original.step, primary]
  | outlived scheduled | slotEmpties scheduled =>
      rw [quiet.timer?_eq_none] at scheduled
      cases scheduled
  | waits =>
      exact ⟨⟨legacyAfter, unreserved, quiet.untimed, quiet.idle,
        quiet.timers⟩, rfl⟩
  | _ => exact ⟨quiet, rfl⟩

end Quiet

/-! ## Messages of protocol 2 -/

/-- The messages that only protocol 2 knows. -/
def IsHandoffMessage : Message → Prop
  | .handoff _ | .controlRequestResult _ _ _ => True
  | _ => False

/-- Messages of protocol 2 go to sockets that support handoff. -/
theorem capable_of_mem_framesOf
    {app : AppState}
    {entry : Todo}
    {frames : List Frame}
    {frame : Frame}
    (safe : m.Safe entry)
    (built : m.framesOf app entry = .ok frames)
    (sent : frame ∈ frames)
    (handoff : IsHandoffMessage frame.message) :
    m.supportsHandoff frame.socket = true := by
  have snapshots : ∀ {ws : WebSocket} {reason : Option RoleReason}
      {message : Message}, m.snapshotFor app ws reason = .ok message →
      ¬IsHandoffMessage message := by
    intro ws reason message snapshot
    obtain ⟨client, _, rfl⟩ := snapshotFor_eq_ok snapshot
    exact id
  cases entry with
  | push ws reason =>
      simp only [framesOf, bind, Except.bind] at built
      split at built
      · split at built
        · cases built
        rename_i message snapshot
        obtain rfl := Except.ok.inj built
        obtain rfl := List.mem_singleton.mp sent
        exact absurd handoff (snapshots snapshot)
      · obtain rfl := Except.ok.inj built
        cases sent
  | sendState ws =>
      simp only [framesOf, bind, Except.bind] at built
      split at built
      · cases built
      rename_i message snapshot
      obtain rfl := Except.ok.inj built
      obtain rfl := List.mem_singleton.mp sent
      exact absurd handoff (snapshots snapshot)
  | broadcastHandoff =>
      obtain rfl := Except.ok.inj built
      obtain ⟨ws, member, rfl⟩ := List.mem_map.mp sent
      exact (List.mem_filter.mp member).2
  | broadcastRoster =>
      obtain rfl := Except.ok.inj built
      obtain ⟨ws, _, rfl⟩ := List.mem_map.mp sent
      exact handoff.elim
  | sendHandoff ws | sendResult ws =>
      obtain rfl := Except.ok.inj built
      split at sent
      · rename_i capable
        obtain rfl := List.mem_singleton.mp sent
        exact capable
      · cases sent
  | sendReleased ws =>
      obtain rfl := Except.ok.inj built
      obtain rfl := List.mem_singleton.mp sent
      exact handoff.elim
  | broadcast | deliver | broadcastFullState | sendSnapshot =>
      exact safe.elim

/-- A step sends messages of protocol 2 only to sockets that speak it. -/
theorem modern_of_mem_sends
    {app : AppState}
    {frame : Frame}
    {client : Client}
    (taken : m.exec op = some after)
    (sent : frame ∈ m.sends app op)
    (handoff : IsHandoffMessage frame.message)
    (found : m.clients.get? frame.socket = some client ∨
      after.clients.get? frame.socket = some client) :
    handoffProtocol ≤ client.protocol := by
  obtain ⟨todo, enabled, branch, flushed⟩ := sends_of_exec taken
  obtain ⟨entry, member, frames, built, sentByEntry⟩ :=
    (mem_flush (flushed app)).mp sent
  have capable := capable_of_mem_framesOf (branch.safe entry member) built
    sentByEntry handoff
  obtain ⟨later, stored, modern⟩ := supportsHandoff_iff.mp capable
  rcases found with before | current
  · rcases client_origin branch stored with
      ⟨old, oldFound, _, protocol⟩ | ⟨params, connectionId, rfl, _⟩
    · obtain rfl := Option.some.inj (before.symm.trans oldFound)
      rwa [← protocol]
    · exact absurd (Dict.mem_of_get? before) enabled
  · obtain rfl := Option.some.inj (current.symm.trans stored)
    exact modern

/-! ## Whole runs -/

/-- While only legacy sockets connect, the manager follows the original server
and no reservation, request or timer exists; and in every run, a socket that
is sent a message of protocol 2 speaks it. -/
theorem legacy_simulates
    {steps : List (Step ConnectionManager Op)}
    (run : Run exec {} steps m) :
    ((∀ step ∈ steps, LegacyOp step.label) →
      m.original = ({} : Original).run (steps.map Step.label) ∧ m.Quiet) ∧
    ∀ step ∈ steps, ∀ app, ∀ frame ∈ step.before.sends app step.label,
      IsHandoffMessage frame.message →
      ∀ client, step.before.clients.get? frame.socket = some client ∨
        step.after.clients.get? frame.socket = some client →
      ¬client.protocol < handoffProtocol := by
  constructor
  · refine run.historyInvariant (fun steps m =>
      (∀ step ∈ steps, LegacyOp step.label) →
        m.original = ({} : Original).run (steps.map Step.label) ∧ m.Quiet)
      (fun _ => ⟨rfl, quiet_initial⟩) ?_
    intro past current op after _ earlier taken legacy
    obtain ⟨same, quiet⟩ := earlier fun step member =>
      legacy step (List.mem_append_left _ member)
    obtain ⟨enabled, todo, _, branch⟩ := transition_of_exec taken
    have legacyOp := legacy ⟨current, op, after⟩ (by simp)
    obtain ⟨quietAfter, follows⟩ := quiet.transition legacyOp enabled branch
    refine ⟨?_, quietAfter⟩
    rw [List.map_append, List.map_singleton, Original.run_append_singleton,
      follows, same]
  · intro step member app frame sent handoff client found legacy
    have modern := modern_of_mem_sends (run.taken_of_mem member) sent handoff
      found
    exact absurd legacy (not_lt.mpr modern)

/-- Two old tablets, one with a client id that it is too old to use; both ask
for control in vain and the primary's socket closes. -/
theorem legacy_simulates_pair :
    ∃ steps m, replay exec {}
        [.connect ⟨0⟩ ⟨none, some "stage", none⟩ "c0",
          .connect ⟨1⟩ ⟨some "x", some "booth", some "observer"⟩ "c1",
          .requestControl ⟨1⟩ "r0",
          .disconnect ⟨0⟩] = some (steps, m) ∧
      m.original = ⟨[⟨1⟩], none⟩ ∧
      m.original = ({} : Original).run (steps.map Step.label) ∧ m.Quiet := by
  have runs : (replay exec {}
      [.connect ⟨0⟩ ⟨none, some "stage", none⟩ "c0",
        .connect ⟨1⟩ ⟨some "x", some "booth", some "observer"⟩ "c1",
        .requestControl ⟨1⟩ "r0",
        .disconnect ⟨0⟩]).map (fun result =>
          decide (result.2.original = ⟨[⟨1⟩], none⟩) &&
            decide (result.1.map Step.label =
              [.connect ⟨0⟩ ⟨none, some "stage", none⟩ "c0",
                .connect ⟨1⟩ ⟨some "x", some "booth", some "observer"⟩ "c1",
                .requestControl ⟨1⟩ "r0",
                .disconnect ⟨0⟩])) = some true := by
    decide +kernel
  obtain ⟨⟨steps, m⟩, replayed, facts⟩ := Option.map_eq_some_iff.mp runs
  rw [Bool.and_eq_true, decide_eq_true_eq, decide_eq_true_eq] at facts
  refine ⟨steps, m, replayed, facts.1,
    (legacy_simulates (run_of_replay replayed)).1 ?_⟩
  intro step member
  have label := List.mem_map_of_mem (f := Step.label) member
  rw [facts.2] at label
  simp only [List.mem_cons, List.not_mem_nil, or_false] at label
  rcases label with same | same | same | same <;> rw [same]
  · intro text given
    cases given
  · intro text given protocol parsed
    obtain rfl := Option.some.inj given
    have unparsable : Text.int? "x" = none := by decide
    rw [unparsable] at parsed
    cases parsed
  · exact trivial
  · exact trivial

end ConnectionManager
end AbletonTracks
