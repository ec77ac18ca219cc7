import AbletonTracks.Remote.CueClips

/-!
# Polling the tracks

The bridge polls the names of the tracks, and asks for the clips of the Cue
Clips track when its index changes.  Requests and replies are datagrams: they
may get lost or come late, while the set is edited or replaced by another.

A round of the poll whose replies all come through brings the view of the
bridge up to date, with one exception: clips that the bridge has heard of, or
has asked for in vain, are not asked for again while their track stays where
it is.
-/

namespace AbletonTracks

open Library

/-- The tracks in Ableton, the bridge, and what is on its way between them. -/
structure TrackPoll where
  tracks : List LiveTrack
  bridge : AbletonBridge := {}
  requests : List Command := []
  replies : List TrackReply := []
  deriving DecidableEq

/-- What can happen. -/
inductive PollEvent
  /-- The set is edited, or replaced by another one. -/
  | edit (tracks : List LiveTrack)
  /-- `fetch_tracks`. -/
  | fetchTracks
  /-- Ableton handles a request. -/
  | answer (request : Command)
  | loseRequest (request : Command)
  | deliver (now : ℚ) (reply : TrackReply)
  | loseReply (reply : TrackReply)
  /-- Something else happens to the bridge. -/
  | other (event : AbletonBridge.Event)
  /-- The server schedules a retarget, clears it, or writes to the state that
  it shares with the bridge. -/
  | scheduleRetarget (launchBeat targetBeat : ℚ)
  | clearRetarget
  | write (state : AppState)
  deriving DecidableEq

namespace PollEvent

/-- The reply that an event delivers. -/
def delivered? : PollEvent → Option TrackReply
  | .deliver _ reply => some reply
  | _ => none

/-- The set changes. -/
def Edits : PollEvent → Prop
  | .edit _ => True
  | _ => False

instance : DecidablePred Edits
  | .edit _ => isTrue trivial
  | .fetchTracks | .answer _ | .loseRequest _ | .deliver .. | .loseReply _
  | .other _ | .scheduleRetarget .. | .clearRetarget | .write _ =>
      isFalse id

end PollEvent

namespace TrackPoll

variable {s after middle finish : TrackPoll}
  {past round : List (Step TrackPoll PollEvent)} {tracks : List LiveTrack}

/-- The bridge has handled something, and its commands are on their way. -/
def handled (s : TrackPoll) (result : AbletonBridge × List Effect) :
    TrackPoll :=
  { s with
    bridge := result.1
    requests := s.requests ++ result.2.filterMap Effect.command? }

/-- The machine. -/
def exec (s : TrackPoll) : PollEvent → Option TrackPoll
  | .edit tracks => some { s with tracks := tracks }
  | .fetchTracks => some (s.handled (s.bridge, AbletonBridge.fetchTracks))
  | .answer request =>
      if request ∈ s.requests then
        some { s with
          requests := s.requests.erase request
          replies := s.replies ++ (answer? s.tracks request).toList }
      else none
  | .loseRequest request =>
      if request ∈ s.requests then
        some { s with requests := s.requests.erase request }
      else none
  | .deliver now reply =>
      if reply ∈ s.replies then
        some ({ s with replies := s.replies.erase reply }.handled
          (s.bridge.datagramReceived now reply.address reply.args))
      else none
  | .loseReply reply =>
      if reply ∈ s.replies then
        some { s with replies := s.replies.erase reply }
      else none
  | .other event =>
      if event.LeavesTracks then some (s.handled (s.bridge.handle event))
      else none
  | .scheduleRetarget launchBeat targetBeat =>
      some { s with
        bridge := s.bridge.scheduleDownbeatRetarget launchBeat targetBeat }
  | .clearRetarget =>
      some { s with bridge := s.bridge.clearPendingRetarget }
  | .write state => some { s with bridge := { s.bridge with state := state } }

/-! ## What is delivered -/

/-- The replies that were delivered. -/
def deliveries (steps : List (Step TrackPoll PollEvent)) : List TrackReply :=
  steps.filterMap fun step => step.label.delivered?

/-- The slots of the last reply with clip names that the bridge has taken since
the index of the Cue Clips track changed. -/
def heard (steps : List (Step TrackPoll PollEvent)) : List (Option String) :=
  steps.foldl (fun slots step =>
    step.label.delivered?.elim slots (step.before.bridge.clipView.hear slots))
    []

/-- Only a reply about the tracks changes what the bridge knows of the cue
clips. -/
theorem clipView_exec
    {event : PollEvent}
    (taken : s.exec event = some after) :
    after.bridge.clipView =
      event.delivered?.elim s.bridge.clipView s.bridge.clipView.receive := by
  cases event with
  | edit | fetchTracks | scheduleRetarget | clearRetarget | write =>
      obtain rfl := Option.some.inj taken
      rfl
  | answer | loseRequest | loseReply =>
      simp only [exec] at taken
      split at taken
      · obtain rfl := Option.some.inj taken
        rfl
      · cases taken
  | deliver now reply =>
      simp only [exec] at taken
      split at taken
      · obtain rfl := Option.some.inj taken
        exact s.bridge.datagramReceived_clipView now reply
      · cases taken
  | other event =>
      simp only [exec] at taken
      split at taken
      · rename_i leaves
        obtain rfl := Option.some.inj taken
        exact s.bridge.handle_clipView leaves
      · cases taken

/-- Over a run the replies change it one by one. -/
theorem clipView_of_run
    {start : TrackPoll} {steps : List (Step TrackPoll PollEvent)}
    (run : Run exec start steps finish) :
    finish.bridge.clipView =
      (deliveries steps).foldl ClipView.receive start.bridge.clipView := by
  induction run with
  | nil => rfl
  | @snoc _ _ _ label _ taken inductionHypothesis =>
      rw [clipView_exec taken, inductionHypothesis, deliveries, deliveries,
        List.filterMap_append, List.foldl_append, List.filterMap_cons]
      cases label.delivered? <;> rfl

/-- In every run the slots of the bridge are those it heard. -/
theorem heard_of_run
    {start : TrackPoll}
    (fresh : start.bridge = {})
    (run : Run exec start past s) :
    s.bridge.clipView.Heard (heard past) := by
  refine run.historyInvariant
    (fun past s => s.bridge.clipView.Heard (heard past))
    (by rw [fresh]; exact ⟨rfl, fun _ => rfl⟩) ?_
  intro past current event after _ hears taken
  rw [clipView_exec taken, heard, List.foldl_append, List.foldl_cons,
    List.foldl_nil]
  cases event.delivered? with
  | none => exact hears
  | some reply => exact ClipView.heard_receive hears reply

/-- The set does not change. -/
def Still (steps : List (Step TrackPoll PollEvent)) : Prop :=
  ∀ step ∈ steps, ¬step.label.Edits

instance : DecidablePred Still :=
  fun steps => inferInstanceAs (Decidable (∀ step ∈ steps, _))

theorem tracks_exec
    {event : PollEvent}
    (taken : s.exec event = some after)
    (still : ¬event.Edits) :
    after.tracks = s.tracks := by
  cases event with
  | edit => exact absurd trivial still
  | fetchTracks | scheduleRetarget | clearRetarget | write =>
      obtain rfl := Option.some.inj taken
      rfl
  | answer | loseRequest | loseReply | deliver | other =>
      simp only [exec] at taken
      split at taken
      · obtain rfl := Option.some.inj taken
        rfl
      · cases taken

theorem tracks_of_run
    {start : TrackPoll} {steps : List (Step TrackPoll PollEvent)}
    (run : Run exec start steps finish)
    (still : Still steps) :
    finish.tracks = start.tracks := by
  induction run with
  | nil => rfl
  | snoc _ taken inductionHypothesis =>
      have last := still _ (List.mem_append_right _ List.mem_cons_self)
      rw [tracks_exec taken last]
      exact inductionHypothesis fun step member =>
        still step (List.mem_append_left _ member)

/-! ## Undisturbed rounds -/

/-- The bridge asks for the track names, by itself or with all the rest. -/
def Fetches (step : Step TrackPoll PollEvent) : Prop :=
  match step.label with
  | .fetchTracks => True
  | .other event =>
      .getTrackNames ∈
        (step.before.bridge.handle event).2.filterMap Effect.command?
  | _ => False

/-- The answers to what the bridge asks in a step that delivers a reply. -/
def answersAsked (step : Step TrackPoll PollEvent) : List TrackReply :=
  match step.label with
  | .deliver now reply =>
      ((step.before.bridge.datagramReceived now reply.address
        reply.args).2.filterMap Effect.command?).filterMap
          (answer? step.before.tracks)
  | _ => []

/-- One whole round of the poll goes through while the set does not change: a
request for the track names is sent, its reply is delivered, and so are the
replies to what the bridge asks while it handles that one.  No other reply
about the tracks comes in between. -/
structure Undisturbed (round : List (Step TrackPoll PollEvent)) : Prop where
  still : Still round
  fetches : ∃ step, round.head? = some step ∧ Fetches step
  replies : ∃ early handling late reply, round = early ++ handling :: late ∧
    deliveries early = [] ∧
    handling.label.delivered? = some reply ∧
    answer? handling.before.tracks .getTrackNames = some reply ∧
    deliveries late = answersAsked handling

theorem answersAsked_eq
    {step : Step TrackPoll PollEvent} {reply : TrackReply}
    (delivered : step.label.delivered? = some reply) :
    answersAsked step = ((step.before.bridge.clipView.asks reply).bind
      fun index => answer? step.before.tracks (.getClipsName index)).toList := by
  obtain ⟨before, label, after⟩ := step
  cases label with
  | deliver now own =>
      obtain rfl := Option.some.inj delivered
      exact answers_datagramReceived before.bridge now own before.tracks
  | _ => cases delivered

/-- Up to the first reply of a round nothing is heard, and the set is what it
was. -/
theorem before_of_quiet
    {early late : List (Step TrackPoll PollEvent)}
    {handling : Step TrackPoll PollEvent}
    (run : Run exec middle (early ++ handling :: late) finish)
    (still : Still (early ++ handling :: late))
    (quiet : deliveries early = []) :
    handling.before.bridge.clipView = middle.bridge.clipView ∧
      handling.before.tracks = middle.tracks := by
  obtain ⟨before, _, _⟩ := run.split
  have view := clipView_of_run before
  rw [quiet, List.foldl_nil] at view
  exact ⟨view, tracks_of_run before fun step member =>
    still step (List.mem_append_left _ member)⟩

/-- A round is undisturbed if just the replies of a round are delivered. -/
theorem undisturbed_iff
    (run : Run exec middle round finish)
    (still : Still round)
    (fetches : ∃ step, round.head? = some step ∧ Fetches step) :
    Undisturbed round ↔ deliveries round =
      middle.bridge.clipView.roundReplies middle.tracks := by
  constructor
  · rintro ⟨_, _, early, handling, late, reply, rfl, quiet, delivered,
      answered, asked⟩
    obtain ⟨view, tracks⟩ := before_of_quiet run still quiet
    rw [answersAsked_eq delivered, view, tracks] at asked
    rw [tracks] at answered
    obtain rfl := Option.some.inj answered
    rw [ClipView.roundReplies, ← asked, deliveries, List.filterMap_append,
      List.filterMap_cons, delivered]
    change deliveries early ++ _ = _
    rw [quiet]
    rfl
  · intro own
    obtain ⟨early, handling, late, rfl, quiet, delivered, rest⟩ :=
      List.filterMap_eq_cons_iff.mp own
    have quiet : deliveries early = [] :=
      List.filterMap_eq_nil_iff.mpr quiet
    obtain ⟨view, tracks⟩ := before_of_quiet run still quiet
    refine ⟨still, fetches, early, handling, late, _, rfl, quiet, delivered,
      ?_, ?_⟩
    · rw [tracks]
      rfl
    · rw [answersAsked_eq delivered, view, tracks]
      exact rest

/-- A round that begins with `fetch_tracks` is one of the poll. -/
theorem undisturbed_of_deliveries
    (run : Run exec middle round finish)
    (still : Still round)
    (first : round.head?.map Step.label = some .fetchTracks)
    (delivered : deliveries round =
      middle.bridge.clipView.roundReplies middle.tracks) :
    Undisturbed round := by
  obtain ⟨step, listed, label⟩ := Option.map_eq_some_iff.mp first
  have fetches : Fetches step := by
    unfold Fetches
    rw [label]
    trivial
  exact (undisturbed_iff run still ⟨step, listed, fetches⟩).mpr delivered

/-- After any history, a whole undisturbed round brings the view of the bridge
up to date exactly if it was not outdated: there are tracks to tell of, or the
bridge knows of no Cue Clips track; and either that track is not where the
bridge has it, or the clips that the bridge heard of there, if any, are in the
same slots as now. -/
theorem shows_iff_not_outdated
    {start : TrackPoll}
    (fresh : start.bridge = {})
    (earlier : Run exec start past middle)
    (run : Run exec middle round finish)
    (undisturbed : Undisturbed round) :
    finish.bridge.clipView.Shows finish.tracks ↔
      ¬middle.bridge.clipView.Outdated (heard past) middle.tracks := by
  have replies := (undisturbed_iff run undisturbed.still
    undisturbed.fetches).mp undisturbed
  rw [clipView_of_run run, replies, tracks_of_run run undisturbed.still]
  exact ClipView.shows_round_iff (heard_of_run fresh earlier)

/-- The Cue Clips track behind another one; in the second set it has moved up,
and one of its clips has another name. -/
private def clipsBehind : List LiveTrack :=
  [⟨"Drums", [], some []⟩,
    ⟨"Cue Clips", [some "Verse", none, some "Chorus"], some []⟩]

private def clipsInFront : List LiveTrack :=
  [⟨" cue clips ", [some "Verse", none, some "Bridge"], some []⟩,
    ⟨"Drums", [], some []⟩]

/-- A round of the poll, with the clips of a track asked for where they are
given. -/
private def pollLabels
    (tracks : List LiveTrack)
    (index? : Option Nat) : List PollEvent :=
  let asked := index?.toList
  [.fetchTracks, .answer .getTrackNames,
    .deliver 1 (.trackNames (tracks.map LiveTrack.name))] ++
  (asked.map fun index => .answer (.getClipsName index)) ++
  asked.flatMap fun index =>
    ((answer? tracks (.getClipsName index)).map (.deliver 2)).toList

/-- The Cue Clips track moves and a clip is renamed: the next round finds the
clips again. -/
theorem shows_iff_not_outdated_moved :
    ∃ past round middle finish,
      Run exec { tracks := clipsBehind } past middle ∧
      Run exec middle round finish ∧ Undisturbed round ∧
      middle.bridge.clipView.slotByName.get? "chorus" = some 2 ∧
      finish.bridge.clipView.Shows clipsInFront ∧
      finish.bridge.clipView.slotByName.get? "bridge" = some 2 := by
  have runs : ((replay exec { tracks := clipsBehind }
      (pollLabels clipsBehind (some 1) ++ [.edit clipsInFront])).bind
        fun earlier =>
      (replay exec earlier.2 (pollLabels clipsInFront (some 0))).map
        fun run => decide (Still run.1 ∧
          (run.1.head?.map Step.label = some .fetchTracks) ∧
          deliveries run.1 =
            earlier.2.bridge.clipView.roundReplies earlier.2.tracks ∧
          earlier.2.tracks = clipsInFront ∧
          earlier.2.bridge.clipView.index = some 1 ∧
          earlier.2.bridge.clipView.slotByName.get? "chorus" = some 2 ∧
          run.2.bridge.clipView.slotByName.get? "bridge" = some 2)) =
      some true := by
    decide +kernel
  obtain ⟨⟨past, middle⟩, pastReplayed, runs⟩ :=
    Option.bind_eq_some_iff.mp runs
  obtain ⟨⟨round, finish⟩, replayed, facts⟩ := Option.map_eq_some_iff.mp runs
  obtain ⟨still, first, delivered, tracks, index, chorus, bridge⟩ :=
    of_decide_eq_true facts
  have earlier := run_of_replay pastReplayed
  have run := run_of_replay replayed
  have undisturbed := undisturbed_of_deliveries run still first delivered
  have moved : ¬middle.bridge.clipView.Outdated (heard past)
      middle.tracks := by
    rw [tracks]
    rintro (⟨nothing, _⟩ | ⟨_, same, _⟩)
    · cases nothing
    · rw [index] at same
      exact absurd same (by decide +kernel)
  have shows :=
    (shows_iff_not_outdated rfl earlier run undisturbed).mpr moved
  rw [tracks_of_run run still, tracks] at shows
  exact ⟨past, round, middle, finish, earlier, run, undisturbed, chorus,
    shows, bridge⟩

private def clipsRenamed : List LiveTrack :=
  [⟨"Drums", [], some []⟩,
    ⟨"Cue Clips", [some "Verse", none, some "Bridge"], some []⟩]

/-- A clip that is renamed in its slot: the track is where it was, so its clips
are not asked for, and the bridge goes on with the old name. -/
theorem not_shows_of_renamedClip :
    ¬∀ (start middle finish : TrackPoll)
      (past round : List (Step TrackPoll PollEvent)), start.bridge = {} →
      Run exec start past middle → Run exec middle round finish →
      Undisturbed round → finish.bridge.clipView.Shows finish.tracks := by
  intro always
  have runs : ((replay exec { tracks := clipsBehind }
      (pollLabels clipsBehind (some 1) ++ [.edit clipsRenamed])).bind
        fun earlier =>
      (replay exec earlier.2 (pollLabels clipsRenamed none)).map
        fun run => decide (Still run.1 ∧
          (run.1.head?.map Step.label = some .fetchTracks) ∧
          deliveries run.1 =
            earlier.2.bridge.clipView.roundReplies earlier.2.tracks ∧
          run.2.bridge.clipView.slotByName.get? "bridge" ≠
            slotOf? (cueSlots run.2.tracks) "bridge")) = some true := by
    decide +kernel
  obtain ⟨⟨past, middle⟩, pastReplayed, runs⟩ :=
    Option.bind_eq_some_iff.mp runs
  obtain ⟨⟨round, finish⟩, replayed, facts⟩ := Option.map_eq_some_iff.mp runs
  obtain ⟨still, first, delivered, differ⟩ := of_decide_eq_true facts
  have run := run_of_replay replayed
  have shows := always _ _ _ _ _ rfl (run_of_replay pastReplayed) run
    (undisturbed_of_deliveries run still first delivered)
  exact differ (shows.slots "bridge")

end TrackPoll
end AbletonTracks
