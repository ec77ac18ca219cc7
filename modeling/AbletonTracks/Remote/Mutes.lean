import AbletonTracks.Remote.Beats
import AbletonTracks.Remote.CueClips
import AbletonTracks.Remote.Listeners

/-!
# The mutes of the tracks

The bridge keeps a row for each track, and mirrors there whether it is muted.
It asks for the names of the tracks, and then for a listener on each of the
indices; from then on Ableton tells it every change.  Requests and replies are
handled in the order in which they were sent.

Of a poll, only what concerns the rows is modelled.  Live calls the listeners
of a track whenever its mute changes, and only then.
-/

namespace AbletonTracks

open Library

/-- A track of the set; its target tells it from every other. -/
structure MutableTrack (τ : Type) where
  target : τ
  name : String
  muted : Bool
  deriving DecidableEq

/-- A reply of Ableton that changes the rows. -/
inductive RowReply
  | trackNames (names : List String)
  | mute (index : Nat) (muted : Bool)
  deriving DecidableEq

namespace RowReply

/-- The address of a reply. -/
def address : RowReply → String
  | .trackNames _ => "/live/song/get/track_names"
  | .mute _ _ => "/live/track/get/mute"

/-- How a boolean arrives. -/
def boolArgument (value : Bool) : OscArgument :=
  ⟨if value then "True" else "False", some (.finite value.toNat),
    some value.toNat, value, false⟩

/-- The arguments as they arrive. -/
def args : RowReply → List OscArgument
  | .trackNames names => names.map fun name => (OscValue.string name).argument
  | .mute index muted => [(OscValue.int index).argument, boolArgument muted]

/-- What a reply makes of the mutes: a new row is not muted. -/
def receive (mutes : List Bool) : RowReply → List Bool
  | .trackNames names =>
      if names = [] then mutes
      else (List.range names.length).map fun index => mutes.getD index false
  | .mute index muted => mutes.set index muted

end RowReply

/-! ## The rows of the bridge -/

namespace AbletonBridge

variable {bridge : AbletonBridge}

/-- The rows are numbered in order. -/
def RowsNumbered (bridge : AbletonBridge) : Prop :=
  bridge.state.tracks.map Track.index =
    List.range bridge.state.tracks.length

/-- The mutes on show. -/
def mutes (bridge : AbletonBridge) : List Bool :=
  bridge.state.tracks.map Track.muted

theorem index_of_rowsNumbered
    (numbered : bridge.RowsNumbered)
    {index : Nat} {track : Track}
    (listed : bridge.state.tracks[index]? = some track) :
    track.index = index := by
  have same := congrArg (fun indices => indices[index]?) numbered
  obtain ⟨inside, rfl⟩ := List.getElem?_eq_some_iff.mp listed
  simpa [inside] using same

/-- A mute that was known for an index is kept. -/
theorem oldMute_eq
    (numbered : bridge.RowsNumbered)
    (index : Nat) :
    oldMute bridge.state.tracks index = bridge.mutes.getD index false := by
  unfold oldMute mutes
  rw [List.getD_eq_getElem?_getD, List.getElem?_map]
  cases listed : bridge.state.tracks[index]? with
  | none =>
      have absent : ∀ track ∈ bridge.state.tracks, track.index ≠ index := by
        rintro track member rfl
        obtain ⟨place, found⟩ := List.mem_iff_getElem?.mp member
        rw [index_of_rowsNumbered numbered found, found] at listed
        cases listed
      rw [List.find?_eq_none.mpr (by simpa using absent)]
      rfl
  | some track =>
      have own := index_of_rowsNumbered numbered listed
      cases found : bridge.state.tracks.reverse.find?
          fun track => track.index = index with
      | none =>
          have absent := List.find?_eq_none.mp found track
            (List.mem_reverse.mpr (List.mem_of_getElem? listed))
          simp [own] at absent
      | some other =>
          have same := List.find?_some found
          obtain ⟨place, listed'⟩ := List.mem_iff_getElem?.mp
            (List.mem_reverse.mp (List.mem_of_find?_eq_some found))
          have other' := index_of_rowsNumbered numbered listed'
          simp only [decide_eq_true_eq] at same
          rw [same] at other'
          subst other'
          rw [listed] at listed'
          obtain rfl := Option.some.inj listed'
          rfl

theorem setMuted_eq
    {tracks : List Track} {start : Nat}
    (numbered : tracks.map Track.index = List.range' start tracks.length)
    (index : Nat)
    (muted : Bool) :
    setMuted (start + index : Nat) muted tracks =
      if index < tracks.length then
        some (tracks.modify index fun track => { track with muted := muted })
      else none := by
  induction tracks generalizing start index with
  | nil => rfl
  | cons track rest inductionHypothesis =>
      rw [List.map_cons, List.length_cons, List.range'_succ] at numbered
      obtain ⟨first, others⟩ := List.cons.inj numbered
      rw [setMuted, first]
      cases index with
      | zero => simp [first]
      | succ index =>
          have later : (start : Int) ≠ (start + (index + 1) : Nat) := by
            omega
          rw [if_neg later, show start + (index + 1) = start + 1 + index by
            omega, inductionHypothesis others]
          by_cases inside : index < rest.length
          · simp [inside]
          · simp [inside]

theorem handleTrackNames_rows
    (numbered : bridge.RowsNumbered)
    (names : List String) :
    (bridge.handleTrackNames (RowReply.trackNames names).args).1.RowsNumbered ∧
      (bridge.handleTrackNames (RowReply.trackNames names).args).1.mutes =
        (RowReply.trackNames names).receive bridge.mutes := by
  have texts : (RowReply.trackNames names).args.map OscArgument.text =
      names := by
    simp [RowReply.args, OscValue.argument, Function.comp_def]
  simp only [handleTrackNames, texts, RowReply.receive]
  split
  · exact ⟨numbered, rfl⟩
  · refine ⟨?_, ?_⟩
    · change (names.zipIdx.map _).map Track.index = List.range _
      rw [List.map_map, List.length_map, List.length_zipIdx,
        List.range_eq_range', ← List.zipIdx_map_snd 0 names]
      rfl
    · change (names.zipIdx.map _).map Track.muted = _
      have fromIndices : names.zipIdx.map
          (fun name => oldMute bridge.state.tracks name.2) =
          (names.zipIdx.map Prod.snd).map (oldMute bridge.state.tracks) := by
        rw [List.map_map]
        rfl
      rw [List.map_map, List.range_eq_range', ← List.zipIdx_map_snd 0 names]
      refine fromIndices.trans (List.map_congr_left fun index _ => ?_)
      exact oldMute_eq numbered index

theorem handleTrackMute_rows
    (numbered : bridge.RowsNumbered)
    (index : Nat)
    (muted : Bool) :
    (bridge.handleTrackMute (RowReply.mute index muted).args).1.RowsNumbered ∧
      (bridge.handleTrackMute (RowReply.mute index muted).args).1.mutes =
        (RowReply.mute index muted).receive bridge.mutes := by
  have fromZero := numbered
  rw [RowsNumbered, List.range_eq_range'] at fromZero
  have found := setMuted_eq fromZero index muted
  rw [Nat.zero_add] at found
  simp only [handleTrackMute, RowReply.args, OscValue.argument,
    RowReply.boolArgument, Option.bind_some, found, RowReply.receive]
  by_cases inside : index < bridge.state.tracks.length
  · rw [if_pos inside]
    constructor
    · change List.map Track.index (bridge.state.tracks.modify index _) =
        List.range _
      rw [List.length_modify, ← numbered]
      refine List.ext_getElem? fun place => ?_
      rw [List.getElem?_map, List.getElem?_modify, List.getElem?_map]
      split
      · cases bridge.state.tracks[place]? <;> rfl
      · simp
    · change List.map Track.muted (bridge.state.tracks.modify index _) =
        bridge.mutes.set index muted
      refine List.ext_getElem? fun place => ?_
      rw [List.getElem?_map, List.getElem?_modify, mutes,
        List.getElem?_set', List.getElem?_map]
      split
      · cases bridge.state.tracks[place]? <;> rfl
      · simp
  · rw [if_neg inside]
    refine ⟨numbered, ?_⟩
    rw [List.set_eq_of_length_le]
    rw [mutes, List.length_map]
    exact not_lt.mp inside

/-- A reply numbers the rows anew, or leaves their numbers. -/
theorem datagramReceived_rows
    (numbered : bridge.RowsNumbered)
    (now : ℚ)
    (reply : RowReply) :
    (bridge.datagramReceived now reply.address reply.args).1.RowsNumbered ∧
      (bridge.datagramReceived now reply.address reply.args).1.mutes =
        reply.receive bridge.mutes := by
  have same : { bridge with lastReceived := now }.RowsNumbered := numbered
  cases reply with
  | trackNames names => exact handleTrackNames_rows same names
  | mute index muted => exact handleTrackMute_rows same index muted

/-! ## Everything else -/

theorem clearLandedJump_tracks (state : AppState) :
    (clearLandedJump state).tracks = state.tracks := by
  unfold clearLandedJump
  split <;> rfl

theorem handleBeat_tracks
    (bridge : AbletonBridge)
    (isBeatBoundary : Bool)
    (args : List OscArgument) :
    (bridge.handleBeat isBeatBoundary args).1.state.tracks =
      bridge.state.tracks := by
  unfold handleBeat
  split
  · rfl
  · dsimp only
    split
    · rfl
    · rw [clearLandedJump_tracks, updateIndices, fireRetarget_state]
      rfl

/-- No other message changes a row. -/
theorem dispatch_tracks
    (bridge : AbletonBridge)
    {address : String}
    (args : List OscArgument)
    (notNames : address ≠ "/live/song/get/track_names")
    (notMute : address ≠ "/live/track/get/mute") :
    (bridge.dispatch address args).1.state.tracks = bridge.state.tracks := by
  unfold dispatch
  split
  · simp only [handleCuePoints]
    split <;> rfl
  · exact handleBeat_tracks bridge true args
  · exact handleBeat_tracks bridge false args
  · exact absurd rfl notNames
  · unfold handleCueClipNames
    split
    · rfl
    · split
      · rfl
      · split <;> rfl
  · exact absurd rfl notMute
  · unfold handleTrackMeter
    split
    · split <;> rfl
    · rfl
  · unfold handleIsPlaying
    split <;> rfl
  · unfold handleTempo
    split <;> rfl
  · unfold handleSignatureNumerator
    split <;> rfl
  · rfl

/-- The event is no reply about the rows. -/
def Event.LeavesRows : Event → Prop
  | .datagram _ address _ =>
      address ≠ "/live/song/get/track_names" ∧
        address ≠ "/live/track/get/mute"
  | _ => True

instance : DecidablePred Event.LeavesRows
  | .datagram .. => inferInstanceAs (Decidable (_ ∧ _))
  | .cuesGenerated | .guideAnalyzed | .analysisApplied | .watchdogTick _
  | .meterTick => isTrue trivial

theorem handle_tracks
    (bridge : AbletonBridge)
    {event : Event}
    (leaves : event.LeavesRows) :
    (bridge.handle event).1.state.tracks = bridge.state.tracks := by
  cases event with
  | datagram now address args =>
      exact dispatch_tracks { bridge with lastReceived := now } args
        leaves.1 leaves.2
  | cuesGenerated | guideAnalyzed | analysisApplied => rfl
  | watchdogTick now =>
      unfold handle watchdog
      dsimp only
      split <;> rfl
  | meterTick =>
      unfold handle pollTrackMeters
      dsimp only
      split <;> rfl

end AbletonBridge

/-! ## Ableton -/

/-- There are listeners for the mute of every track, and none of a mixer. -/
def everyTrack (τ : Type) : Listenable Nat τ :=
  ⟨fun _ => false, fun _ _ => true⟩

/-- `int(params[0])`, for the index in a request of the bridge: a float arrives
in single precision, and one that is not finite raises. -/
def requestIndex? : Number → Option Int
  | .bool value => some value.toNat
  | .int value => some value
  | .float (.finite value) => some (LiveSong.truncate (toSingle value))
  | .float _ => none

/-- The tracks in Ableton with their listeners, the bridge, and what is on its
way between them. -/
structure MuteMirror (τ : Type) where
  tracks : List (MutableTrack τ) := []
  listeners : Listeners Nat τ := {}
  bridge : AbletonBridge := {}
  requests : List Command := []
  replies : List RowReply := []
  deriving DecidableEq

/-- What can happen. -/
inductive MuteEvent (τ : Type)
  /-- Tracks are added, deleted, moved or renamed. -/
  | edit (tracks : List (MutableTrack τ))
  /-- A track is muted in Ableton, or no longer. -/
  | change (target : τ) (muted : Bool)
  /-- `fetch_tracks`. -/
  | fetchTracks
  /-- `set_track_mute`. -/
  | setTrackMute (trackIndex : Number) (muted : Bool)
  /-- Ableton handles the oldest request. -/
  | answer
  /-- The bridge handles the oldest reply. -/
  | deliver (now : ℚ)
  /-- Something else happens to the bridge. -/
  | other (event : AbletonBridge.Event)
  deriving DecidableEq

/-- What may happen in Ableton. -/
inductive LiveAction (τ : Type)
  | edit (tracks : List (MutableTrack τ))
  /-- The mute of a track becomes another one. -/
  | mute (target : τ) (muted : Bool)
  /-- `_start_listen` for the track with an index. -/
  | listen (index : Nat) (track : MutableTrack τ)
  /-- `song_get_track_names`. -/
  | tellNames
  | nothing
  deriving DecidableEq

namespace MuteMirror

variable {τ : Type} [DecidableEq τ] (s : MuteMirror τ)

/-! ## What an event makes of Ableton -/

/-- Set a mute; Live does nothing where it is that already. -/
def muting (target : τ) (muted : Bool) : LiveAction τ :=
  if ∃ track ∈ s.tracks, track.target = target ∧ track.muted ≠ muted then
    .mute target muted
  else .nothing

/-- The track to which the index in a request leads. -/
def trackAt? (trackIndex : Number) : Option (MutableTrack τ) :=
  (requestIndex? trackIndex).bind (System.itemAt? s.tracks)

/-- How Ableton handles a request; it raises where there is no such track. -/
def requested : Command → LiveAction τ
  | .getTrackNames => .tellNames
  | .startListenMute index => (s.tracks[index]?).elim .nothing (.listen index)
  | .setMute trackIndex muted =>
      (s.trackAt? trackIndex).elim .nothing fun track =>
        s.muting track.target muted
  | _ => .nothing

/-- What an event makes Ableton do. -/
def action : MuteEvent τ → LiveAction τ
  | .edit tracks => .edit tracks
  | .change target muted => s.muting target muted
  | .answer => s.requests.head?.elim .nothing s.requested
  | .fetchTracks | .setTrackMute .. | .deliver _ | .other _ => .nothing

/-- The targets that an edit deletes. -/
def deleted (tracks : List (MutableTrack τ)) : List τ :=
  (s.tracks.map MutableTrack.target).filter fun target =>
    target ∉ tracks.map MutableTrack.target

/-- What the callbacks on a target tell of its new mute: each one under its own
index. -/
def told (target : τ) (muted : Bool) : List RowReply :=
  (s.listeners.connected.filter fun listener =>
    listener.target = target).map fun listener => .mute listener.key muted

/-- Ableton does something.  The listeners of a track that is deleted are
dropped, and a new one tells the current value at once. -/
def act : LiveAction τ → MuteMirror τ
  | .edit tracks =>
      { s with
        tracks := tracks
        listeners := (s.deleted tracks).foldl
          (fun listeners target =>
            (listeners.handle (everyTrack τ) (.gone target)).1) s.listeners }
  | .mute target muted =>
      { s with
        tracks := s.tracks.map fun track =>
          if track.target = target then { track with muted := muted }
          else track
        replies := s.replies ++ s.told target muted }
  | .listen index track =>
      { s with
        listeners :=
          (s.listeners.handle (everyTrack τ) (.start track.target index)).1
        replies := s.replies ++ [.mute index track.muted] }
  | .tellNames =>
      { s with
        replies := s.replies ++
          [.trackNames (s.tracks.map MutableTrack.name)] }
  | .nothing => s

/-! ## The machine -/

/-- Every track has a target of its own, and a track that was there before
keeps its mute. -/
def EditsTo (before after : List (MutableTrack τ)) : Prop :=
  (after.map MutableTrack.target).Nodup ∧
    ∀ old ∈ before, ∀ new ∈ after, new.target = old.target →
      new.muted = old.muted

instance (before after : List (MutableTrack τ)) :
    Decidable (EditsTo before after) :=
  inferInstanceAs (Decidable (_ ∧ _))

/-- The bridge has handled something, and its commands are on their way. -/
def handled (result : AbletonBridge × List Effect) : MuteMirror τ :=
  { s with
    bridge := result.1
    requests := s.requests ++ result.2.filterMap Effect.command? }

/-- The machine. -/
def exec (event : MuteEvent τ) : Option (MuteMirror τ) :=
  match event with
  | .edit tracks =>
      if EditsTo s.tracks tracks then some (s.act (s.action event)) else none
  | .change .. => some (s.act (s.action event))
  | .answer =>
      match s.requests with
      | [] => none
      | _ :: requests =>
          some { s.act (s.action event) with requests := requests }
  | .fetchTracks => some (s.handled (s.bridge, AbletonBridge.fetchTracks))
  | .setTrackMute trackIndex muted =>
      some (s.handled
        (s.bridge, AbletonBridge.setTrackMute trackIndex muted))
  | .deliver now =>
      match s.replies with
      | [] => none
      | reply :: replies =>
          some ({ s with replies := replies }.handled
            (s.bridge.datagramReceived now reply.address reply.args))
  | .other event =>
      if event.LeavesRows then some (s.handled (s.bridge.handle event))
      else none

/-- The mutes on show once every reply on its way has arrived. -/
def drained : List Bool := s.replies.foldl RowReply.receive s.bridge.mutes

/-! ## What a step does to the rows -/

variable {s} {after : MuteMirror τ} {event : MuteEvent τ}

omit [DecidableEq τ] in
theorem drained_append (replies : List RowReply) :
    drained { s with replies := s.replies ++ replies } =
      replies.foldl RowReply.receive s.drained :=
  List.foldl_append

omit [DecidableEq τ] in
theorem rowsNumbered_handled
    (numbered : s.bridge.RowsNumbered)
    {result : AbletonBridge × List Effect}
    (same : result.1.state.tracks = s.bridge.state.tracks) :
    (s.handled result).bridge.RowsNumbered ∧
      (s.handled result).drained = s.drained := by
  unfold AbletonBridge.RowsNumbered drained AbletonBridge.mutes at *
  rw [handled, same]
  exact ⟨numbered, rfl⟩

/-- Apart from what is on its way, an event changes what Ableton does at it. -/
theorem exec_spec
    (numbered : s.bridge.RowsNumbered)
    (taken : s.exec event = some after) :
    after.tracks = (s.act (s.action event)).tracks ∧
      after.listeners = (s.act (s.action event)).listeners ∧
      after.bridge.RowsNumbered ∧
      after.drained = (s.act (s.action event)).drained := by
  have unmoved : ∀ action : LiveAction τ, (s.act action).bridge = s.bridge := by
    intro action
    cases action <;> rfl
  cases event with
  | edit tracks =>
      simp only [exec] at taken
      split at taken
      · obtain rfl := Option.some.inj taken
        exact ⟨rfl, rfl, numbered, rfl⟩
      · cases taken
  | change target muted =>
      obtain rfl := Option.some.inj taken
      exact ⟨rfl, rfl, by rwa [unmoved], rfl⟩
  | answer =>
      simp only [exec] at taken
      split at taken
      · cases taken
      · obtain rfl := Option.some.inj taken
        refine ⟨rfl, rfl, ?_, rfl⟩
        change (s.act _).bridge.RowsNumbered
        rwa [unmoved]
  | fetchTracks | setTrackMute =>
      obtain rfl := Option.some.inj taken
      exact ⟨rfl, rfl, rowsNumbered_handled numbered rfl⟩
  | deliver now =>
      simp only [exec] at taken
      split at taken
      · cases taken
      · rename_i reply replies oldest
        obtain rfl := Option.some.inj taken
        obtain ⟨again, mutes⟩ :=
          AbletonBridge.datagramReceived_rows numbered now reply
        refine ⟨rfl, rfl, again, ?_⟩
        unfold drained handled action act
        rw [oldest, List.foldl_cons, ← mutes]
  | other event =>
      simp only [exec] at taken
      split at taken
      · rename_i leaves
        obtain rfl := Option.some.inj taken
        exact ⟨rfl, rfl, rowsNumbered_handled numbered
          (s.bridge.handle_tracks leaves)⟩
      · cases taken

/-- The tracks are edited. -/
def Edits (event : MuteEvent τ) : Prop :=
  match event with
  | .edit _ => True
  | _ => False

omit [DecidableEq τ] in
instance : DecidablePred (Edits (τ := τ))
  | .edit _ => isTrue trivial
  | .change .. | .fetchTracks | .setTrackMute .. | .answer | .deliver _
  | .other _ => isFalse id

/-- An action that can be asked for: no edit, and a listener only for the track
with its index. -/
def Fits (s : MuteMirror τ) : LiveAction τ → Prop
  | .edit _ => False
  | .listen index track => s.tracks[index]? = some track
  | .mute .. | .tellNames | .nothing => True

theorem fits_muting (target : τ) (muted : Bool) :
    s.Fits (s.muting target muted) := by
  unfold muting
  split <;> trivial

theorem fits_requested (request : Command) :
    s.Fits (s.requested request) := by
  unfold requested
  split
  · trivial
  · rename_i index
    cases listed : s.tracks[index]? with
    | none => trivial
    | some track => exact listed
  · rename_i trackIndex muted
    cases s.trackAt? trackIndex with
    | none => trivial
    | some track => exact fits_muting track.target muted
  · trivial

theorem fits_action (still : ¬Edits event) : s.Fits (s.action event) := by
  cases event with
  | edit tracks => exact absurd trivial still
  | fetchTracks | setTrackMute | deliver | other => trivial
  | change target muted => exact fits_muting target muted
  | answer =>
      unfold action
      cases s.requests.head? with
      | none => trivial
      | some request => exact fits_requested request

/-! ## Who is told -/

/-- A row that was requested: a callback for it is stored, and connected to the
track with its index. -/
structure Hears (s : MuteMirror τ) (index : Nat) : Prop where
  row : index < s.drained.length
  own : ∃ track listener, s.tracks[index]? = some track ∧
    s.listeners.listenerFunctions.get? index = some listener ∧
    listener ∈ s.listeners.connected ∧ listener.target = track.target

/-- A row comes to show the mute of the track with its index. -/
def Shows (s : MuteMirror τ) (index : Nat) : Prop :=
  s.drained[index]? = s.tracks[index]?.map MutableTrack.muted

omit [DecidableEq τ] in
instance (s : MuteMirror τ) (index : Nat) : Decidable (s.Shows index) :=
  inferInstanceAs (Decidable (s.drained[index]? = _))

/-- A callback for an index is connected to a target. -/
def Connects (s : MuteMirror τ) (index : Nat) (target : τ) : Prop :=
  ∃ listener ∈ s.listeners.connected,
    listener.key = index ∧ listener.target = target

instance (s : MuteMirror τ) (index : Nat) (target : τ) :
    Decidable (s.Connects index target) :=
  inferInstanceAs (Decidable (∃ listener ∈ s.listeners.connected, _))

/-- A request for a listener on a row is answered. -/
def Listens (s : MuteMirror τ) (index : Nat) (event : MuteEvent τ) : Prop :=
  match s.action event with
  | .listen heard _ => heard = index ∧ index < s.drained.length
  | _ => False

instance (s : MuteMirror τ) (index : Nat) (event : MuteEvent τ) :
    Decidable (s.Listens index event) := by
  unfold Listens
  split <;> infer_instance

/-- The row is told the mute of the track with its index. -/
def Informs (s : MuteMirror τ) (index : Nat) (event : MuteEvent τ) : Prop :=
  match s.action event with
  | .listen heard _ => heard = index
  | .mute target muted => s.Connects index target ∧
      (s.act (s.action event)).tracks[index]?.map MutableTrack.muted =
        some muted
  | _ => False

instance (s : MuteMirror τ) (index : Nat) (event : MuteEvent τ) :
    Decidable (s.Informs index event) := by
  unfold Informs
  split <;> infer_instance

/-- A stray callback tells the row another mute than that of the track with
its index. -/
def Misinforms (s : MuteMirror τ) (index : Nat) (event : MuteEvent τ) :
    Prop :=
  match s.action event with
  | .mute target muted =>
      (∃ listener ∈ s.listeners.connected, s.listeners.Stray listener ∧
        listener.key = index ∧ listener.target = target) ∧
      (s.act (s.action event)).tracks[index]?.map MutableTrack.muted ≠
        some muted
  | _ => False

/-- Replies with one mute for several indices. -/
theorem getElem?_foldl_mute
    (mutes : List Bool)
    (keys : List Nat)
    (muted : Bool)
    {index : Nat}
    (inside : index < mutes.length) :
    ((keys.map fun key => RowReply.mute key muted).foldl
        RowReply.receive mutes)[index]? =
      if index ∈ keys then some muted else mutes[index]? := by
  induction keys generalizing mutes with
  | nil => rfl
  | cons key keys inductionHypothesis =>
      rw [List.map_cons, List.foldl_cons, RowReply.receive,
        inductionHypothesis _ (by rwa [List.length_set])]
      by_cases later : index ∈ keys
      · rw [if_pos later, if_pos (List.mem_cons_of_mem _ later)]
      · rw [if_neg later]
        by_cases same : index = key
        · subst same
          rw [if_pos List.mem_cons_self, List.getElem?_set_self inside]
        · rw [if_neg (by simp [same, later]),
            List.getElem?_set_ne (Ne.symm same)]

theorem length_foldl_mute
    (mutes : List Bool)
    (keys : List Nat)
    (muted : Bool) :
    ((keys.map fun key => RowReply.mute key muted).foldl
        RowReply.receive mutes).length = mutes.length := by
  induction keys generalizing mutes with
  | nil => rfl
  | cons key keys inductionHypothesis =>
      rw [List.map_cons, List.foldl_cons, RowReply.receive,
        inductionHypothesis, List.length_set]

/-- A new mute comes to each row for which a callback is connected to the
target. -/
theorem drained_mute
    (target : τ)
    (muted : Bool)
    {index : Nat}
    (inside : index < s.drained.length) :
    index < (s.act (.mute target muted)).drained.length ∧
      (s.act (.mute target muted)).drained[index]? =
        if s.Connects index target then some muted
        else s.drained[index]? := by
  have told : (s.act (.mute target muted)).drained =
      (((s.listeners.connected.filter fun listener =>
        listener.target = target).map Listener.key).map
          fun key => RowReply.mute key muted).foldl
            RowReply.receive s.drained := by
    rw [List.map_map]
    exact List.foldl_append
  have keys : index ∈ (s.listeners.connected.filter fun listener =>
      listener.target = target).map Listener.key ↔
        s.Connects index target := by
    simp only [List.mem_map, List.mem_filter, decide_eq_true_eq]
    constructor
    · rintro ⟨listener, ⟨member, own⟩, key⟩
      exact ⟨listener, member, key, own⟩
    · rintro ⟨listener, member, key, own⟩
      exact ⟨listener, ⟨member, own⟩, key⟩
  rw [told, length_foldl_mute, getElem?_foldl_mute _ _ _ inside]
  exact ⟨inside, if_congr keys rfl rfl⟩

/-! ## One step -/

theorem consistent_act
    (consistent : s.listeners.Consistent (everyTrack τ))
    (action : LiveAction τ) :
    (s.act action).listeners.Consistent (everyTrack τ) := by
  cases action with
  | edit tracks =>
      change ((s.deleted tracks).foldl _ s.listeners).Consistent _
      generalize s.listeners = listeners at consistent
      induction s.deleted tracks generalizing listeners with
      | nil => exact consistent
      | cons target targets inductionHypothesis =>
          exact inductionHypothesis _
            (Listeners.handle_spec consistent (.gone target)).1
  | listen index track =>
      exact (Listeners.handle_spec consistent (.start track.target index)).1
  | mute | tellNames | nothing => exact consistent

/-- The answer to a request for a listener makes a row heard, and right. -/
theorem hears_listen
    (consistent : s.listeners.Consistent (everyTrack τ))
    {index : Nat} {track : MutableTrack τ}
    (listed : s.tracks[index]? = some track)
    (inside : index < s.drained.length) :
    (s.act (.listen index track)).Hears index ∧
      (s.act (.listen index track)).Shows index := by
  have drained : (s.act (.listen index track)).drained =
      s.drained.set index track.muted := drained_append _
  obtain ⟨listener, stored, connected, own⟩ :=
    Listeners.startListen_own consistent
      (show (everyTrack τ).mixer index = false from rfl)
      (show (everyTrack τ).observable track.target index = true from rfl)
  refine ⟨⟨?_, track, listener, listed, stored, connected, own⟩, ?_⟩
  · rwa [drained, List.length_set]
  · rw [Shows, drained, List.getElem?_set_self inside]
    exact (congrArg (Option.map MutableTrack.muted) listed).symm

theorem getElem?_tracks_mute (target : τ) (muted : Bool) (index : Nat) :
    (s.act (.mute target muted)).tracks[index]? =
      s.tracks[index]?.map fun track =>
        if track.target = target then { track with muted := muted }
        else track :=
  List.getElem?_map

/-- A row that is heard stays so until an edit. -/
theorem Hears.act
    {index : Nat}
    (hears : s.Hears index)
    (consistent : s.listeners.Consistent (everyTrack τ))
    {action : LiveAction τ}
    (fits : s.Fits action) :
    (s.act action).Hears index := by
  obtain ⟨row, track, listener, listed, stored, connected, own⟩ := hears
  cases action with
  | edit tracks => exact fits.elim
  | nothing => exact ⟨row, track, listener, listed, stored, connected, own⟩
  | mute target muted =>
      refine ⟨(drained_mute target muted row).1, _, listener,
        (getElem?_tracks_mute target muted index).trans
          (congrArg (Option.map _) listed), stored, connected, ?_⟩
      dsimp only
      split <;> exact own
  | listen heard track' =>
      by_cases same : heard = index
      · subst same
        exact (hears_listen consistent fits row).1
      · obtain ⟨stays, remains⟩ := Listeners.startListen_other track'.target
          consistent (show (everyTrack τ).mixer heard = false from rfl)
          (Ne.symm same) stored connected
        have drained : (s.act (.listen heard track')).drained =
            s.drained.set heard track'.muted := drained_append _
        refine ⟨?_, track, listener, listed, stays, remains, own⟩
        rwa [drained, List.length_set]
  | tellNames =>
      have drained : (s.act .tellNames).drained =
          RowReply.receive s.drained
            (.trackNames (s.tracks.map MutableTrack.name)) := drained_append _
      have inside : index < s.tracks.length :=
        (List.getElem?_eq_some_iff.mp listed).1
      refine ⟨?_, track, listener, listed, stored, connected, own⟩
      rw [drained, RowReply.receive]
      split
      · exact row
      · simpa using inside

/-- What an event does to a row that is heard: only a stray callback makes it
wrong. -/
theorem shows_act_iff
    {index : Nat}
    (hears : s.Hears index)
    (consistent : s.listeners.Consistent (everyTrack τ))
    (still : ¬Edits event) :
    (s.act (s.action event)).Shows index ↔
      (s.Shows index ∨ s.Informs index event) ∧
        ¬s.Misinforms index event := by
  have fits := fits_action (s := s) still
  have row := hears.row
  obtain ⟨track, listener, listed, stored, connected, own⟩ := hears.own
  unfold Informs Misinforms
  cases action : s.action event with
  | edit tracks =>
      rw [action] at fits
      exact fits.elim
  | nothing => simp [act]
  | mute target muted =>
      obtain ⟨_, drained⟩ := drained_mute target muted row
      have key : listener.key = index := consistent.keyed stored
      have new : (s.act (.mute target muted)).tracks[index]?.map
          MutableTrack.muted =
            some (if track.target = target then muted else track.muted) := by
        rw [getElem?_tracks_mute, listed, Option.map_some, Option.map_some]
        split <;> rfl
      simp only [Shows, new, drained]
      by_cases told : s.Connects index target
      · simp only [told, if_true, true_and]
        by_cases same : (if track.target = target then muted
            else track.muted) = muted
        · simp [same]
        · -- The callback that is stored for the row is on another track.
          have other : track.target ≠ target :=
            fun equal => same (if_pos equal)
          obtain ⟨teller, member, tellerKey, tellerTarget⟩ := told
          have stray : s.listeners.Stray teller := by
            refine ⟨member, ?_⟩
            rw [tellerKey, stored]
            rintro ⟨⟩
            exact other (own.symm.trans tellerTarget)
          refine iff_of_false (fun equal => same (Option.some.inj equal).symm)
            fun right => right.2 ⟨⟨teller, member, stray, tellerKey,
              tellerTarget⟩, fun equal => same (Option.some.inj equal)⟩
      · have other : track.target ≠ target :=
          fun equal => told ⟨listener, connected, key, own.trans equal⟩
        have silent : ¬∃ teller ∈ s.listeners.connected,
            s.listeners.Stray teller ∧ teller.key = index ∧
              teller.target = target := by
          rintro ⟨teller, member, _, tellerKey, tellerTarget⟩
          exact told ⟨teller, member, tellerKey, tellerTarget⟩
        simp [told, silent, other, listed]
  | listen heard track' =>
      rw [action] at fits
      have drained : (s.act (.listen heard track')).drained =
          s.drained.set heard track'.muted := drained_append _
      by_cases same : heard = index
      · subst same
        simpa using (hears_listen consistent fits row).2
      · simp only [same, or_false, not_false_eq_true, and_true, Shows,
          drained, List.getElem?_set_ne same]
        rfl
  | tellNames =>
      have drained : (s.act .tellNames).drained =
          RowReply.receive s.drained
            (.trackNames (s.tracks.map MutableTrack.name)) := drained_append _
      have inside : index < s.tracks.length :=
        (List.getElem?_eq_some_iff.mp listed).1
      have kept : (s.act .tellNames).drained[index]? = s.drained[index]? := by
        rw [drained, RowReply.receive]
        split
        · rfl
        · simp [inside, row]
      simp only [Shows, kept, or_false, not_false_eq_true, and_true]
      rfl

/-! ## Whole runs -/

variable {steps : List (Step (MuteMirror τ) (MuteEvent τ))}

theorem invariant_of_run (run : Run exec {} steps s) :
    s.listeners.Consistent (everyTrack τ) ∧ s.bridge.RowsNumbered := by
  refine run.invariant
    (fun s => s.listeners.Consistent (everyTrack τ) ∧ s.bridge.RowsNumbered)
    ⟨Listeners.consistent_empty, rfl⟩ ?_
  intro current event after ⟨consistent, numbered⟩ taken
  obtain ⟨_, listeners, again, _⟩ := exec_spec numbered taken
  rw [listeners]
  exact ⟨consistent_act consistent _, again⟩

/-- A row that was requested since the last edit comes to show whether its
track is muted, unless a stray callback has told it otherwise since it was last
told so. -/
theorem shows_iff_not_since_misinforms
    {index : Nat}
    (run : Run exec {} steps s)
    (listening : Since (fun step => step.before.Listens index step.label)
      (fun step => ¬Edits step.label) steps) :
    s.Shows index ↔
      ¬Since (fun step => step.before.Misinforms index step.label)
        (fun step => ¬step.before.Informs index step.label) steps := by
  suffices both : s.Hears index ∧ (s.Shows index ↔
      ¬Since (fun step => step.before.Misinforms index step.label)
        (fun step => ¬step.before.Informs index step.label) steps) from both.2
  induction run with
  | nil => exact (not_since_nil listening).elim
  | @snoc earlier current after event before taken inductionHypothesis =>
      obtain ⟨consistent, numbered⟩ := invariant_of_run before
      obtain ⟨tracks, listeners, _, drained⟩ := exec_spec numbered taken
      have hears : after.Hears index ↔
          (current.act (current.action event)).Hears index := by
        constructor <;> intro ⟨row, own⟩
        · exact ⟨drained ▸ row, tracks ▸ listeners ▸ own⟩
        · exact ⟨drained ▸ row, tracks ▸ listeners ▸ own⟩
      have shows : after.Shows index ↔
          (current.act (current.action event)).Shows index := by
        unfold Shows
        rw [drained, tracks]
      rw [hears, shows, since_snoc, not_or, not_and_not_right]
      obtain ⟨listened, still⟩ | listens := since_snoc.mp listening
      · obtain ⟨heard, right⟩ := inductionHypothesis listened
        refine ⟨heard.act consistent (fits_action still), ?_⟩
        rw [shows_act_iff heard consistent still, right]
        exact and_congr_left fun _ => or_iff_not_imp_left.trans
          (by rw [not_not])
      · unfold Listens at listens
        unfold Informs Misinforms
        dsimp only at listens ⊢
        split at listens
        · rename_i heard track action
          obtain ⟨rfl, inside⟩ := listens
          have still : ¬Edits event := by
            cases event with
            | edit => cases action
            | _ => exact id
          have listed := fits_action (s := current) still
          rw [action] at listed ⊢
          obtain ⟨heard, right⟩ := hears_listen consistent listed inside
          exact ⟨heard, iff_of_true right (by simp)⟩
        · exact listens.elim

/-- A track is inserted in front of another one, and the poll moves the
listeners to their new indices; but the old callback still tells row 0 of the
track that is at index 1 by then. -/
theorem shows_iff_not_since_misinforms_inserted :
    ∃ steps s, Run exec ({} : MuteMirror Nat) steps s ∧
      ¬s.Shows 0 ∧
      Since (fun step => step.before.Misinforms 0 step.label)
        (fun step => ¬step.before.Informs 0 step.label) steps := by
  have runs : (replay exec ({} : MuteMirror Nat)
      [.edit [⟨7, "Drums", false⟩], .fetchTracks, .answer, .deliver 0,
        .answer, .edit [⟨8, "Click", false⟩, ⟨7, "Drums", false⟩],
        .fetchTracks, .answer, .deliver 0, .deliver 0, .answer, .answer,
        .change 7 true]).map (fun run =>
          decide (¬run.2.Shows 0 ∧
            Since (fun step => step.before.Listens 0 step.label)
              (fun step => ¬Edits step.label) run.1)) = some true := by
    decide +kernel
  obtain ⟨⟨steps, s⟩, replayed, checked⟩ := Option.map_eq_some_iff.mp runs
  obtain ⟨wrong, listening⟩ := of_decide_eq_true checked
  have run := run_of_replay replayed
  refine ⟨steps, s, run, wrong, ?_⟩
  by_contra never
  exact wrong ((shows_iff_not_since_misinforms run listening).mpr never)

end MuteMirror
end AbletonTracks
