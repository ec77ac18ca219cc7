import AbletonTracks.Parser.SetList
import AbletonTracks.Remote.Analysis
import AbletonTracks.Remote.Taps
import AbletonTracks.Server.Told

/-!
# From the cues of Ableton to the tablets

A planned set is written as cue points of Ableton, the song's handler lists
them, the bridge reads songs from the reply and the server tells the devices.
At rest every tablet shows the set as it was planned, exactly if its names can
be read.
-/

namespace AbletonTracks
namespace System

open Library

variable {song : LiveSong} {args : List OscArgument} {now : ℚ}
  {setList : List PlannedSong} {past future steps : List (Step System Event)}
  {reply : Step System Event} {finish : System} {ws : WebSocket}

/-- After a reply with its cue points, and while they stay as they are, the
songs are those of Ableton. -/
theorem songs_of_reply
    (run : Run exec {} (past ++ reply :: future) finish)
    (listed : song.cuePoints ≠ [])
    (replied : reply.label = .ableton
      (.datagram now AbletonBridge.cuePointsAddress args))
    (carried : List.Forall₂ OscValue.Carries song.songGetCuePoints args)
    (unchanged : ∀ step ∈ future, ∀ now args,
      step.label = .ableton
        (.datagram now AbletonBridge.cuePointsAddress args) →
      List.Forall₂ OscValue.Carries song.songGetCuePoints args) :
    finish.ableton.state.songs =
      Parser.parseMarkers (song.cuePoints.map LiveCue.decoded) := by
  obtain ⟨earlier, taken, later⟩ := run.split
  have read := LiveSong.decodeCues_songGetCuePoints carried
  have decoded : DecodesReply reply args := by
    refine decodesReply_of_ne_nil earlier.reachable taken replied ?_
    rw [read]
    simpa using listed
  refine songs_of_run (earlier.reachable.step taken) ?_ later unchanged
  rw [decoded.2.1, read]

/-- At rest a tablet shows what the server has, unless it was abandoned. -/
theorem shows_of_atRest
    (run : Run exec {} steps finish)
    (sound : ∀ step ∈ steps, ¬songListFact.Abandons step.before step.label)
    (resting : finish.AtRest)
    (present : ws ∈ finish.manager.clients) :
    (songListFact.told finish ws).map SongList.songs =
      some finish.ableton.state.songs := by
  have kept := Fact.keepsTold_of_run run
    ((misleads_songList_iff run).mpr sound)
  rw [kept.told resting present]
  rfl

/-- The cue points of a planned set are there, and single precision holds their
times if it holds those of the set. -/
theorem cuePoints_of_written
    (written : (song.cuePoints.map LiveCue.decoded).Perm
      (Parser.planMarkers setList))
    (nonempty : setList ≠ [])
    (exact' : ∀ marker ∈ Parser.planMarkers setList,
      toSingle marker.position = marker.position) :
    song.cuePoints ≠ [] ∧
      ∀ cue ∈ song.cuePoints, toSingle cue.time = cue.time := by
  constructor
  · intro empty
    rw [empty, List.map_nil, List.nil_perm] at written
    obtain ⟨first, rest, rfl⟩ := List.exists_cons_of_ne_nil nonempty
    cases written
  · intro cue member
    exact exact' cue.decoded
      (written.subset (List.mem_map_of_mem member))

/-- A planned set with songs is written as cue points of Ableton, in whatever
order, and a reply lists them; an empty reply might be skipped.  In a run in
which no broadcast abandons a tablet, every tablet shows the set as it was
planned, once nothing is left to run, exactly if each of its names can be
read. -/
theorem shows_planned_iff
    (run : Run exec {} (past ++ reply :: future) finish)
    (nonempty : setList ≠ [])
    (ascending : Parser.Ascending (Parser.planMarkers setList))
    (exact' : ∀ marker ∈ Parser.planMarkers setList,
      toSingle marker.position = marker.position)
    (written : (song.cuePoints.map LiveCue.decoded).Perm
      (Parser.planMarkers setList))
    (replied : reply.label = .ableton
      (.datagram now AbletonBridge.cuePointsAddress args))
    (arrived : List.Forall₂ OscValue.Arrives song.songGetCuePoints args)
    (unchanged : ∀ step ∈ future, ∀ now args,
      step.label = .ableton
        (.datagram now AbletonBridge.cuePointsAddress args) →
      List.Forall₂ OscValue.Arrives song.songGetCuePoints args)
    (sound : ∀ step ∈ past ++ reply :: future,
      ¬songListFact.Abandons step.before step.label)
    (resting : finish.AtRest)
    (present : ws ∈ finish.manager.clients) :
    (songListFact.told finish ws).map SongList.songs =
        some (Parser.planned (song.cuePoints.map LiveCue.decoded) setList) ↔
      ∀ planned ∈ setList, planned.Readable := by
  obtain ⟨listed, times⟩ := cuePoints_of_written written nonempty exact'
  have songs := songs_of_reply run listed replied
    (LiveSong.carries_of_arrives times arrived)
    fun step member now args later =>
      LiveSong.carries_of_arrives times (unchanged step member now args later)
  rw [shows_of_atRest run sound resting present, songs, Option.some_inj]
  constructor
  · intro read
    exact Parser.readable_of_read ascending written read
  · intro readable
    exact Parser.parseMarkers_of_readable ascending written readable

/-- A song of one further section. -/
private def plannedSong : List PlannedSong :=
  [⟨.titled "Amazing Grace", 0, [⟨"Verse", 8⟩]⟩]

/-- It is written in Ableton with the later cue point listed first. -/
private def writtenSong : LiveSong :=
  { cuePoints := [⟨"Verse", 8⟩, ⟨"== Amazing Grace ==", 0⟩] }

private def writtenReply : List OscArgument :=
  writtenSong.songGetCuePoints.map OscValue.argument

private theorem writtenReply_arrives :
    List.Forall₂ OscValue.Arrives writtenSong.songGetCuePoints
      writtenReply := by
  have arrives : ∀ value ∈ writtenSong.songGetCuePoints,
      value.Packs ∧ value.packed = value := by
    decide +kernel
  rw [writtenReply, List.forall₂_map_right_iff, List.forall₂_same]
  intro value member
  obtain ⟨packs, same⟩ := arrives value member
  exact ⟨packs, same.symm ▸ value.carries_argument⟩

/-- Two tablets connect. -/
private def twoConnect : List Event :=
  [.accept ⟨0⟩ {} "stage"] ++ resumes (.handler ⟨0⟩) 2 ++
    [.accept ⟨1⟩ {} "keys"] ++ resumes (.handler ⟨1⟩) 3

/-- Both tablets show the song that was planned. -/
theorem shows_planned_iff_twoTablets :
    ∃ steps finish, Run exec {} steps finish ∧
      finish.manager.clients.keys = [⟨0⟩, ⟨1⟩] ∧
      ∀ ws ∈ finish.manager.clients,
        (songListFact.told finish ws).map SongList.songs =
          some [⟨"Amazing Grace", 0, [⟨"Start", 0, 1, false, some 8⟩,
            ⟨"Verse", 8, 0, false, none⟩]⟩] := by
  have runs : (replay exec {} (twoConnect ++
      .ableton (.datagram 0 AbletonBridge.cuePointsAddress writtenReply) ::
        resumes (.task 0) 3)).map (fun run =>
      decide (run.2.manager.clients.keys = [⟨0⟩, ⟨1⟩] ∧ run.2.AtRest) &&
      run.1.all raisesNothing) = some true := by
    decide +kernel
  obtain ⟨⟨steps, finish⟩, replayed, facts⟩ := Option.map_eq_some_iff.mp runs
  rw [Bool.and_eq_true, decide_eq_true_eq, List.all_eq_true] at facts
  obtain ⟨⟨clients, resting⟩, tested⟩ := facts
  have run := run_of_replay replayed
  obtain ⟨past, _, rfl, _, labels⟩ :=
    List.map_eq_append_iff.mp (labels_of_replay replayed)
  obtain ⟨reply, future, rfl, replied, later⟩ :=
    List.map_eq_cons_iff.mp labels
  -- After the reply only the broadcast goes on.
  have unchanged : ∀ step ∈ future, ∀ now args,
      step.label = .ableton
        (.datagram now AbletonBridge.cuePointsAddress args) →
      List.Forall₂ OscValue.Arrives writtenSong.songGetCuePoints args := by
    intro step member now args asked
    have among : step.label ∈ resumes (.task 0) 3 :=
      later ▸ List.mem_map_of_mem member
    rw [asked] at among
    cases List.eq_of_mem_replicate among
  have ascending : Parser.Ascending (Parser.planMarkers plannedSong) := by
    decide +kernel
  have written : (writtenSong.cuePoints.map LiveCue.decoded).Perm
      (Parser.planMarkers plannedSong) := by
    decide +kernel
  have planned : Parser.planned (writtenSong.cuePoints.map LiveCue.decoded)
      plannedSong = [⟨"Amazing Grace", 0, [⟨"Start", 0, 1, false, some 8⟩,
        ⟨"Verse", 8, 0, false, none⟩]⟩] := by
    decide +kernel
  refine ⟨_, finish, run, clients, fun ws present => ?_⟩
  rw [← planned]
  exact (shows_planned_iff run (by simp [plannedSong]) ascending
    (by decide +kernel) written replied writtenReply_arrives unchanged
    (fun step member => not_abandons_of_raisesNothing (tested step member))
    resting present).mpr (by decide +kernel)

end System
end AbletonTracks
