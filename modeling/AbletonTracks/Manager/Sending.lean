import AbletonTracks.Manager.Consistency

/-!
# What a step sends

The frames of one step are those of the entries of its to-do list, in order, as
long as nothing interrupts it.  The lemmas below say which frames there are at
all, and which sockets receive messages of protocol 2.
-/

namespace AbletonTracks

open Library

namespace ConnectionManager

variable {m after : ConnectionManager} {op : Op} {todo : List Todo}
  {app : AppState} {frames : List Frame}

theorem flush_cons_eq_ok
    {entry : Todo}
    {rest : List Todo}
    (flushed : m.flush app (entry :: rest) = .ok frames) :
    ∃ first others, m.framesOf app entry = .ok first ∧
      m.flush app rest = .ok others ∧ frames = first ++ others := by
  simp only [flush, bind, Except.bind] at flushed
  split at flushed
  · cases flushed
  rename_i first built
  split at flushed
  · cases flushed
  rename_i others restBuilt
  exact ⟨first, others, built, restBuilt, (Except.ok.inj flushed).symm⟩

/-- A frame is sent by one of the entries. -/
theorem mem_flush
    (flushed : m.flush app todo = .ok frames)
    {frame : Frame} :
    frame ∈ frames ↔ ∃ entry ∈ todo, ∃ sent,
      m.framesOf app entry = .ok sent ∧ frame ∈ sent := by
  induction todo generalizing frames with
  | nil =>
      obtain rfl := Except.ok.inj flushed
      simp
  | cons entry rest inductionHypothesis =>
      obtain ⟨first, others, built, restBuilt, rfl⟩ :=
        flush_cons_eq_ok flushed
      rw [List.mem_append, inductionHypothesis restBuilt]
      simp only [List.mem_cons, exists_eq_or_imp, built, Except.ok.injEq,
        exists_eq_left']

/-- A step of the machine sends the frames of the branch it takes. -/
theorem sends_of_exec
    (taken : m.exec op = some after) :
    ∃ todo, m.Enabled op ∧ m.Transition op after todo ∧
      ∀ app, after.flush app todo = .ok (m.sends app op) := by
  obtain ⟨enabled, todo, applied, branch⟩ := transition_of_exec taken
  refine ⟨todo, enabled, branch, fun app => ?_⟩
  obtain ⟨frames, flushed⟩ := flush_of_safe branch.safe app
  simp only [sends, applied, flushed]

/-! ## Results -/

/-- The results that frames bring to a socket for one request. -/
def resultsFor
    (ws : WebSocket)
    (requestId : String)
    (frames : List Frame) : List RequestResult :=
  frames.filterMap fun frame =>
    match frame.message with
    | .controlRequestResult (some id) result _ =>
        if frame.socket = ws ∧ id = requestId then some result else none
    | _ => none

/-- The results that a to-do list owes to a socket for one request. -/
def resultsOwed
    (ws : WebSocket)
    (requestId : String)
    (todo : List Todo) : List RequestResult :=
  todo.filterMap fun entry =>
    match entry with
    | .sendResult socket (some id) result _ =>
        if socket = ws ∧ id = requestId then some result else none
    | _ => none

variable {ws : WebSocket} {requestId : String}

@[simp] theorem resultsFor_nil : resultsFor ws requestId [] = [] := rfl

@[simp] theorem resultsOwed_nil : resultsOwed ws requestId [] = [] := rfl

theorem resultsOwed_append (first second : List Todo) :
    resultsOwed ws requestId (first ++ second) =
      resultsOwed ws requestId first ++ resultsOwed ws requestId second :=
  List.filterMap_append

/-- Announcing role changes owes no result. -/
@[simp] theorem resultsOwed_announce (changes : Changes) :
    resultsOwed ws requestId (announce changes) = [] := by
  rw [resultsOwed, List.filterMap_eq_nil_iff]
  intro entry member
  simp only [announce, List.mem_append, List.mem_map, List.mem_cons,
    List.not_mem_nil, or_false] at member
  rcases member with ⟨change, _, rfl⟩ | rfl | rfl <;> rfl

theorem snapshotFor_eq_ok
    {roleReason : Option RoleReason}
    {message : Message}
    (built : m.snapshotFor app ws roleReason = .ok message) :
    ∃ client, m.clients.get? ws = some client ∧
      message = .state app.fullSnapshot (m.roleOf ws) client.connectionId
        handoffProtocol roleReason := by
  simp only [snapshotFor, bind, Except.bind] at built
  split at built
  · cases built
  rename_i client found
  exact ⟨client, get?_of_lookup found, (Except.ok.inj built).symm⟩

/-! ## Pushes -/

theorem push_mem_announce
    {changes : Changes}
    {reason : RoleReason}
    (change : (ws, reason) ∈ changes) :
    .push ws reason ∈ announce changes := by
  refine List.mem_append_left _ ?_
  exact List.mem_map.mpr ⟨_, change, rfl⟩

end ConnectionManager
end AbletonTracks
