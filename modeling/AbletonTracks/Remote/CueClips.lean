import AbletonTracks.Remote.Tracks
import AbletonTracks.Server.Driving
import Mathlib.Data.List.Induction

/-!
# What the bridge knows of the cue clips

The bridge knows the index of the Cue Clips track and, for each name of a clip
there, its slot.  Two replies change that: one with the names of the tracks,
and one with the names of the clips in a track.  The first makes the bridge
forget the slots and ask for them again, but only where the index is another
one than before.
-/

namespace AbletonTracks

open Library

/-! ## Replies -/

/-- A reply of Ableton about its tracks. -/
inductive TrackReply
  | trackNames (names : List String)
  | clipNames (index : Nat) (slots : List (Option String))
  deriving DecidableEq

namespace TrackReply

/-- The address of a reply. -/
def address : TrackReply → String
  | .trackNames _ => "/live/song/get/track_names"
  | .clipNames _ _ => "/live/track/get/clips/name"

/-- The arguments as they arrive, those of the handler's tuple in its order. -/
def args : TrackReply → List OscArgument
  | .trackNames names => names.map fun name => (OscValue.string name).argument
  | .clipNames index slots =>
      (OscValue.int index).argument :: slots.map slotArgument

end TrackReply

/-! ## Tracks and slots by name -/

/-- The form in which names are compared. -/
def clipKey (name : String) : String := Text.lower (Text.strip name)

/-- The first track with the name of the Cue Clips track. -/
def cueTrack? (names : List String) : Option Nat :=
  names.findIdx? fun name => clipKey name = Text.lower cueClipsTrackName

/-- The last slot whose clip has a name of the given form. -/
def slotOf? (slots : List (Option String)) (key : String) : Option Nat :=
  (slots.zipIdx.filter fun slot =>
    slot.1.map clipKey = some key).getLast?.map Prod.snd

/-- Note the slot of a clip; an empty slot has none. -/
def noteSlot
    (byName : Dict String Nat)
    (slot : Option String × Nat) : Dict String Nat :=
  match slot.1 with
  | none => byName
  | some name => byName.insert (clipKey name) slot.2

/-- The slots by the names of their clips. -/
def slotMap (slots : List (Option String)) : Dict String Nat :=
  slots.zipIdx.foldl noteSlot ∅

@[simp] theorem slotMap_nil : slotMap [] = ∅ := rfl

theorem get?_noteSlot
    (byName : Dict String Nat)
    (slot : Option String × Nat)
    (key : String) :
    (noteSlot byName slot).get? key =
      if slot.1.map clipKey = some key then some slot.2
      else byName.get? key := by
  obtain ⟨content, number⟩ := slot
  cases content with
  | none => simp [noteSlot]
  | some name => simp [noteSlot, Dict.get?_insert, eq_comm]

/-- Of several clips with one name, the last one is noted. -/
theorem get?_slotMap (slots : List (Option String)) (key : String) :
    (slotMap slots).get? key = slotOf? slots key := by
  rw [slotMap, slotOf?]
  induction slots.zipIdx using List.reverseRecOn with
  | nil => simp
  | append_singleton early last inductionHypothesis =>
      rw [List.foldl_append, List.foldl_cons, List.foldl_nil, get?_noteSlot,
        inductionHypothesis, Dict.getLast?_filter_append_singleton]
      by_cases own : last.1.map clipKey = some key
      · rw [if_pos own, if_pos (decide_eq_true own), Option.map_some]
      · rw [if_neg own, if_neg (by simpa using own)]

/-! ## The view of the bridge -/

/-- The index of the Cue Clips track, and the slots of its clips. -/
structure ClipView where
  index : Option Nat := none
  slotByName : Dict String Nat := ∅
  deriving DecidableEq

namespace ClipView

/-- What a reply changes. -/
def receive (view : ClipView) : TrackReply → ClipView
  | .trackNames names =>
      if names = [] ∨ cueTrack? names = view.index then view
      else ⟨cueTrack? names, ∅⟩
  | .clipNames index slots =>
      if view.index = some index then ⟨some index, slotMap slots⟩ else view

/-- The track whose clips a reply makes the bridge ask for. -/
def asks (view : ClipView) : TrackReply → Option Nat
  | .trackNames names =>
      if names = [] ∨ cueTrack? names = view.index then none
      else cueTrack? names
  | .clipNames _ _ => none

end ClipView

namespace AbletonBridge

variable {bridge : AbletonBridge}

/-- What the bridge knows of the cue clips. -/
def clipView (bridge : AbletonBridge) : ClipView where
  index := bridge.cueClipsTrackIndex
  slotByName := bridge.cueClipIndexByName

theorem handleCueClipNames_clipView
    (bridge : AbletonBridge)
    (index : Nat)
    (slots : List (Option String)) :
    (bridge.handleCueClipNames
      (TrackReply.clipNames index slots).args).clipView =
        bridge.clipView.receive (.clipNames index slots) := by
  have note : ∀ (byName : Dict String Nat) (slot : Option String × Nat),
      (if (slotArgument slot.1).isNone then byName
        else byName.insert (Text.lower (Text.strip (slotArgument slot.1).text))
          slot.2) = noteSlot byName slot := by
    rintro byName ⟨content, number⟩
    cases content <;> rfl
  have own : bridge.cueClipsTrackIndex.map Int.ofNat ≠ some (index : ℤ) ↔
      bridge.cueClipsTrackIndex ≠ some index := by
    cases bridge.cueClipsTrackIndex <;> simp
  simp only [handleCueClipNames, TrackReply.args, OscValue.argument, own,
    ClipView.receive, clipView]
  by_cases same : bridge.cueClipsTrackIndex = some index
  · simp only [same, ne_eq, not_true_eq_false, if_false, if_true,
      List.zipIdx_map, List.foldl_map, Prod.map_fst, Prod.map_snd, id_eq, note]
    rfl
  · simp only [same, ne_eq, not_false_eq_true, if_true, if_false]

theorem cueTrack?_eq (names : List String) :
    (names.findIdx? fun name =>
      Text.lower (Text.strip name) = Text.lower cueClipsTrackName) =
        cueTrack? names := rfl

theorem handleTrackNames_clipView
    (bridge : AbletonBridge)
    (names : List String) :
    (bridge.handleTrackNames (TrackReply.trackNames names).args).1.clipView =
      bridge.clipView.receive (.trackNames names) := by
  have texts : (TrackReply.trackNames names).args.map OscArgument.text =
      names := by
    simp [TrackReply.args, OscValue.argument, Function.comp_def]
  simp only [handleTrackNames, texts, cueTrack?_eq, ClipView.receive,
    clipView]
  by_cases nothing : names = []
  · simp only [nothing, if_true, true_or]
  · by_cases same : cueTrack? names = bridge.cueClipsTrackIndex
    · simp only [nothing, same, if_false, or_true, if_true, ne_eq,
        not_true_eq_false]
    · simp only [nothing, same, if_false, or_false, ne_eq, not_false_eq_true,
        if_true]

/-- A reply changes the view as it should. -/
theorem datagramReceived_clipView
    (bridge : AbletonBridge)
    (now : ℚ)
    (reply : TrackReply) :
    (bridge.datagramReceived now reply.address reply.args).1.clipView =
      bridge.clipView.receive reply := by
  cases reply with
  | trackNames names =>
      exact handleTrackNames_clipView { bridge with lastReceived := now } names
  | clipNames index slots =>
      exact handleCueClipNames_clipView { bridge with lastReceived := now }
        index slots

/-! ## Everything else -/

theorem fireRetarget_clipView (bridge : AbletonBridge) :
    bridge.fireRetarget.1.clipView = bridge.clipView := by
  obtain ⟨_, fired⟩ := bridge.fireRetarget_fst
  rw [fired]
  rfl

theorem handleBeat_clipView
    (bridge : AbletonBridge)
    (isBeatBoundary : Bool)
    (args : List OscArgument) :
    (bridge.handleBeat isBeatBoundary args).1.clipView = bridge.clipView := by
  unfold handleBeat
  split
  · rfl
  · dsimp only
    split
    · rfl
    · exact fireRetarget_clipView (bridge.storePosition _)

/-- No other message changes the view. -/
theorem dispatch_clipView
    (bridge : AbletonBridge)
    {address : String}
    (args : List OscArgument)
    (notTracks : address ≠ "/live/song/get/track_names")
    (notClips : address ≠ "/live/track/get/clips/name") :
    (bridge.dispatch address args).1.clipView = bridge.clipView := by
  have handled := bridge.dispatched address args
  generalize (bridge.dispatch address args).1 = after at handled
  cases handled with
  | cuePoints =>
      simp only [handleCuePoints]
      split <;> rfl
  | position isBeatBoundary =>
      exact handleBeat_clipView bridge isBeatBoundary args
  | trackNames => exact absurd rfl notTracks
  | clipNames => exact absurd rfl notClips
  | values => rfl

/-- The event is no reply about tracks. -/
def Event.LeavesTracks : Event → Prop
  | .datagram _ address _ =>
      address ≠ "/live/song/get/track_names" ∧
        address ≠ "/live/track/get/clips/name"
  | _ => True

instance : DecidablePred Event.LeavesTracks
  | .datagram .. => inferInstanceAs (Decidable (_ ∧ _))
  | .cuesGenerated | .guideAnalyzed | .analysisApplied | .watchdogTick _
  | .meterTick => isTrue trivial

theorem handle_clipView
    (bridge : AbletonBridge)
    {event : Event}
    (leaves : event.LeavesTracks) :
    (bridge.handle event).1.clipView = bridge.clipView := by
  cases event with
  | datagram now address args =>
      exact dispatch_clipView { bridge with lastReceived := now } args
        leaves.1 leaves.2
  | cuesGenerated | guideAnalyzed | analysisApplied => rfl
  | watchdogTick now =>
      unfold handle watchdog
      dsimp only
      split <;> rfl
  | meterTick =>
      unfold handle pollTrackMeters
      dsimp only
      split <;> rfl

end AbletonBridge

/-! ## Questions and answers -/

/-- How Ableton answers a command about its tracks: `song_get_track_names`, for
a request without parameters, and `track_get_clip_names` behind its track
callback, which puts the index first and raises where there is no such track. -/
def answer? (tracks : List LiveTrack) : Command → Option TrackReply
  | .getTrackNames => some (.trackNames (tracks.map LiveTrack.name))
  | .getClipsName index =>
      tracks[index]?.map fun track => .clipNames index track.clipSlots
  | _ => none

/-- The answers to what the bridge asks while it handles a reply. -/
theorem answers_datagramReceived
    (bridge : AbletonBridge)
    (now : ℚ)
    (reply : TrackReply)
    (tracks : List LiveTrack) :
    ((bridge.datagramReceived now reply.address reply.args).2.filterMap
        Effect.command?).filterMap (answer? tracks) =
      ((bridge.clipView.asks reply).bind fun index =>
        answer? tracks (.getClipsName index)).toList := by
  cases reply with
  | clipNames index slots => rfl
  | trackNames names =>
      have texts : (TrackReply.trackNames names).args.map OscArgument.text =
          names := by
        simp [TrackReply.args, OscValue.argument, Function.comp_def]
      have mutes : ∀ indices : List Nat,
          ((indices.map fun index =>
            Effect.send (.startListenMute index)).filterMap
              Effect.command?).filterMap (answer? tracks) = [] := by
        intro indices
        simp [Effect.command?, answer?]
      change ((AbletonBridge.handleTrackNames { bridge with
        lastReceived := now } (TrackReply.trackNames names).args).2.filterMap
          Effect.command?).filterMap (answer? tracks) = _
      simp only [AbletonBridge.handleTrackNames, texts,
        AbletonBridge.cueTrack?_eq, ClipView.asks, AbletonBridge.clipView]
      by_cases nothing : names = []
      · simp only [nothing, if_true, true_or]
        rfl
      · by_cases same : cueTrack? names = bridge.cueClipsTrackIndex
        · simp only [nothing, same, if_false, or_true, if_true, ne_eq,
            not_true_eq_false, List.append_nil, List.filterMap_append, mutes]
          rfl
        · simp only [nothing, same, if_false, or_false, ne_eq,
            not_false_eq_true, if_true, List.filterMap_append, mutes,
            List.append_nil]
          cases cueTrack? names with
          | none => rfl
          | some index =>
              have asked : ([Effect.tracksChange].filterMap Effect.command? ++
                  ((some index).toList.map fun index =>
                    Effect.send (.getClipsName index)).filterMap
                      Effect.command?) = [.getClipsName index] := rfl
              rw [← List.filterMap_append, asked, Option.bind_some]
              cases answered : answer? tracks (.getClipsName index) with
              | none => simp [answered]
              | some reply => simp [answered]

/-! ## A round of the poll -/

/-- The slots of the Cue Clips track, if there is one. -/
def cueSlots (tracks : List LiveTrack) : List (Option String) :=
  (((cueTrack? (tracks.map LiveTrack.name)).bind fun index =>
    tracks[index]?).map LiveTrack.clipSlots).getD []

/-- There is a track at the index that was found. -/
theorem exists_cueTrack
    {tracks : List LiveTrack} {index : Nat}
    (found : cueTrack? (tracks.map LiveTrack.name) = some index) :
    ∃ track, tracks[index]? = some track ∧
      cueSlots tracks = track.clipSlots := by
  have inside : index < tracks.length := by
    simpa using (List.findIdx?_eq_some_iff_getElem.mp found).1
  have listed := List.getElem?_eq_getElem inside
  exact ⟨_, listed, by rw [cueSlots, found, Option.bind_some, listed]; rfl⟩

namespace ClipView

variable {view : ClipView} {tracks : List LiveTrack}
  {heard : List (Option String)}

/-- The view is that of the tracks: the index of the first Cue Clips track,
and for each name the last slot with a clip of that name. -/
structure Shows (view : ClipView) (tracks : List LiveTrack) : Prop where
  index : view.index = cueTrack? (tracks.map LiveTrack.name)
  slots : ∀ key, view.slotByName.get? key = slotOf? (cueSlots tracks) key

/-- The view is made of the slots that were heard for its index. -/
structure Heard (view : ClipView) (heard : List (Option String)) : Prop where
  slots : view.slotByName = slotMap heard
  nothing : view.index = none → heard = []

/-- The slots that were heard for the index, after one more reply. -/
def hear
    (view : ClipView)
    (heard : List (Option String)) : TrackReply → List (Option String)
  | .trackNames names =>
      if names = [] ∨ cueTrack? names = view.index then heard else []
  | .clipNames index slots =>
      if view.index = some index then slots else heard

theorem heard_receive
    (hears : view.Heard heard)
    (reply : TrackReply) :
    (view.receive reply).Heard (view.hear heard reply) := by
  cases reply with
  | trackNames names =>
      simp only [receive, hear]
      by_cases same : names = [] ∨ cueTrack? names = view.index
      · rwa [if_pos same, if_pos same]
      · rw [if_neg same, if_neg same]
        exact ⟨rfl, fun _ => rfl⟩
  | clipNames index slots =>
      simp only [receive, hear]
      by_cases own : view.index = some index
      · rw [if_pos own, if_pos own]
        exact ⟨rfl, fun gone => by cases gone⟩
      · rwa [if_neg own, if_neg own]

/-- The replies to a request for the track names, and to what is asked then. -/
def roundReplies (view : ClipView) (tracks : List LiveTrack) :
    List TrackReply :=
  .trackNames (tracks.map LiveTrack.name) ::
    ((view.asks (.trackNames (tracks.map LiveTrack.name))).bind fun index =>
      answer? tracks (.getClipsName index)).toList

/-- A round leaves the view behind the tracks: there are no tracks to tell of,
or the Cue Clips track is where it was and its slots are not asked for,
although other ones were heard. -/
def Outdated
    (view : ClipView)
    (heard : List (Option String))
    (tracks : List LiveTrack) : Prop :=
  (tracks = [] ∧ view.index ≠ none) ∨
    (tracks ≠ [] ∧ view.index = cueTrack? (tracks.map LiveTrack.name) ∧
      ∃ key, slotOf? heard key ≠ slotOf? (cueSlots tracks) key)

/-- Where the Cue Clips track is elsewhere, a round asks for its slots. -/
theorem shows_of_moved
    (some' : tracks ≠ [])
    (moved : cueTrack? (tracks.map LiveTrack.name) ≠ view.index) :
    ((view.roundReplies tracks).foldl receive view).Shows tracks := by
  have named : tracks.map LiveTrack.name ≠ [] := by simpa using some'
  have forgets : view.receive (.trackNames (tracks.map LiveTrack.name)) =
      ⟨cueTrack? (tracks.map LiveTrack.name), ∅⟩ := by
    simp only [receive, named, moved, or_self, if_false]
  have asked : view.asks (.trackNames (tracks.map LiveTrack.name)) =
      cueTrack? (tracks.map LiveTrack.name) := by
    simp only [asks, named, moved, or_self, if_false]
  rw [roundReplies, List.foldl_cons, forgets, asked]
  cases found : cueTrack? (tracks.map LiveTrack.name) with
  | none =>
      have noSlots : cueSlots tracks = [] := by
        rw [cueSlots, found]
        rfl
      exact ⟨found.symm, fun key => by rw [noSlots]; rfl⟩
  | some index =>
      obtain ⟨track, listed, slots⟩ := exists_cueTrack found
      have answered : answer? tracks (.getClipsName index) =
          some (.clipNames index track.clipSlots) := by
        simp only [answer?, listed, Option.map_some]
      simp only [Option.bind_some, answered, Option.toList, List.foldl_cons,
        List.foldl_nil, receive, if_true]
      exact ⟨found.symm, fun key => by rw [slots, get?_slotMap]⟩

/-- Where the track names tell nothing new, a round changes nothing. -/
theorem foldl_roundReplies_of_same
    (same : tracks.map LiveTrack.name = [] ∨
      cueTrack? (tracks.map LiveTrack.name) = view.index) :
    (view.roundReplies tracks).foldl receive view = view := by
  have nothing : view.asks (.trackNames (tracks.map LiveTrack.name)) = none :=
    if_pos same
  have kept : view.receive (.trackNames (tracks.map LiveTrack.name)) = view :=
    if_pos same
  rw [roundReplies, List.foldl_cons, kept, nothing]
  rfl

/-- After a round the view is that of the tracks, unless it was outdated. -/
theorem shows_round_iff
    (hears : view.Heard heard) :
    ((view.roundReplies tracks).foldl receive view).Shows tracks ↔
      ¬view.Outdated heard tracks := by
  by_cases empty : tracks = []
  · subst empty
    rw [foldl_roundReplies_of_same (Or.inl rfl)]
    constructor
    · rintro shows (⟨_, held⟩ | ⟨some', _⟩)
      · exact held shows.index
      · exact some' rfl
    · intro current
      have index : view.index = none := by
        by_contra held
        exact current (Or.inl ⟨rfl, held⟩)
      refine ⟨index, fun key => ?_⟩
      rw [hears.slots, hears.nothing index]
      rfl
  · by_cases same : cueTrack? (tracks.map LiveTrack.name) = view.index
    · rw [foldl_roundReplies_of_same (Or.inr same)]
      constructor
      · rintro shows (⟨none', _⟩ | ⟨_, _, key, differ⟩)
        · exact empty none'
        · rw [← get?_slotMap, ← hears.slots] at differ
          exact differ (shows.slots key)
      · intro current
        refine ⟨same.symm, fun key => ?_⟩
        rw [hears.slots, get?_slotMap]
        by_contra differ
        exact current (Or.inr ⟨empty, same.symm, key, differ⟩)
    · refine iff_of_true (shows_of_moved empty same) ?_
      rintro (⟨none', _⟩ | ⟨_, held, _⟩)
      · exact empty none'
      · exact same held.symm

end ClipView
end AbletonTracks
