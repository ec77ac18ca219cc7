import AbletonTracks.Remote.Replacing
import AbletonTracks.Remote.Tracks

/-!
# Generating cues from a track

`song_generate_cues_from_track` toggles a cue only where no cue has the rounded
time of a clip, so a toggle always creates and never deletes.  Its `cue_map`
stays the one of the current cues: names do not enter it, and it is rebuilt
after every creation.
-/

namespace AbletonTracks

open Library

namespace LiveSong

variable {song : LiveSong} {cues : List LiveCue}
  {done clips : List ArrangementClip} {created : List ℚ}

/-! ## The map of the cues -/

theorem cueMap_append_singleton (cues : List LiveCue) (cue : LiveCue) :
    cueMap (cues ++ [cue]) =
      (cueMap cues).insert (roundTo 3 cue.time) cue.time := by
  rw [cueMap, List.foldl_append]
  rfl

/-- Names do not enter the map. -/
theorem cueMap_map
    {change : LiveCue → LiveCue}
    (keeps : ∀ cue, (change cue).time = cue.time)
    (cues : List LiveCue) :
    cueMap (cues.map change) = cueMap cues := by
  simp only [cueMap, List.foldl_map, keeps]

theorem mem_cueMap {key : ℚ} :
    key ∈ cueMap cues ↔ ∃ cue ∈ cues, roundTo 3 cue.time = key := by
  induction cues using List.reverseRecOn with
  | nil => simp [cueMap]
  | append_singleton early last inductionHypothesis =>
      rw [cueMap_append_singleton, Dict.mem_insert, inductionHypothesis]
      simp only [List.mem_append, List.mem_singleton, or_and_right, exists_or,
        exists_eq_left]
      rw [or_comm, eq_comm]

/-- The map leads to a cue with the rounded time. -/
theorem exists_of_get?_cueMap
    {key time : ℚ}
    (found : (cueMap cues).get? key = some time) :
    roundTo 3 time = key ∧ ∃ cue ∈ cues, cue.time = time := by
  obtain impossible | ⟨cue, member, rfl, rfl⟩ := Dict.get?_foldl_insert found
  · simp at impossible
  · exact ⟨rfl, cue, member, rfl⟩

/-! ## Names of the clips -/

/-- The name of the last clip with a rounded start. -/
def lastName? (clips : List ArrangementClip) (key : ℚ) : Option String :=
  (clips.filter fun clip => roundTo 3 clip.startTime = key).getLast?.map
    ArrangementClip.name

theorem lastName?_append_singleton
    (clips : List ArrangementClip)
    (clip : ArrangementClip)
    (key : ℚ) :
    lastName? (clips ++ [clip]) key =
      if roundTo 3 clip.startTime = key then some clip.name
      else lastName? clips key := by
  rw [lastName?, Dict.getLast?_filter_append_singleton]
  by_cases same : roundTo 3 clip.startTime = key
  · simp [same]
  · simp [same, lastName?]

theorem lastName?_eq_none_iff {key : ℚ} :
    lastName? clips key = none ↔
      ∀ clip ∈ clips, roundTo 3 clip.startTime ≠ key := by
  rw [lastName?, Option.map_eq_none_iff, List.getLast?_eq_none_iff,
    List.filter_eq_nil_iff]
  simp only [decide_eq_true_eq, ne_eq]

/-- The cue that the map has at its rounded time gets the name of the last
clip with that rounded start. -/
def retitle
    (existing : Dict ℚ ℚ)
    (clips : List ArrangementClip)
    (cue : LiveCue) : LiveCue :=
  if existing.get? (roundTo 3 cue.time) = some cue.time then
    { cue with
      name := (lastName? clips (roundTo 3 cue.time)).getD cue.name }
  else cue

@[simp] theorem time_retitle
    (existing : Dict ℚ ℚ)
    (clips : List ArrangementClip)
    (cue : LiveCue) :
    (retitle existing clips cue).time = cue.time := by
  unfold retitle
  split <;> rfl

theorem retitle_of_lastName?_eq_none
    {cue : LiveCue}
    (unnamed : lastName? clips (roundTo 3 cue.time) = none)
    (existing : Dict ℚ ℚ) :
    retitle existing clips cue = cue := by
  unfold retitle
  rw [unnamed]
  split <;> rfl

/-- The map may learn another rounded time. -/
theorem retitle_insert_of_ne
    {key : ℚ} {cue : LiveCue}
    (different : roundTo 3 cue.time ≠ key)
    (existing : Dict ℚ ℚ)
    (time : ℚ)
    (clips : List ArrangementClip) :
    retitle (existing.insert key time) clips cue =
      retitle existing clips cue := by
  rw [retitle, Dict.get?_insert_of_ne existing different]
  rfl

/-- Names that were given once are given again. -/
theorem retitle_retitle
    (existing : Dict ℚ ℚ)
    (clips : List ArrangementClip)
    (cue : LiveCue) :
    retitle existing clips (retitle existing clips cue) =
      retitle existing clips cue := by
  by_cases known : existing.get? (roundTo 3 cue.time) = some cue.time
  · cases named : lastName? clips (roundTo 3 cue.time) <;>
      simp [retitle, known, named]
  · simp [retitle, known]

/-- Naming the cue that the map has at the start of one more clip. -/
theorem retitle_append_singleton
    {existing : Dict ℚ ℚ} {clip : ArrangementClip} {time : ℚ}
    (found : existing.get? (roundTo 3 clip.startTime) = some time)
    (rounded : roundTo 3 time = roundTo 3 clip.startTime)
    (cue : LiveCue) :
    retitle existing (done ++ [clip]) cue =
      if (retitle existing done cue).time = time then
        { retitle existing done cue with name := clip.name }
      else retitle existing done cue := by
  rw [time_retitle]
  by_cases there : cue.time = time
  · subst there
    simp [retitle, rounded, found, lastName?_append_singleton]
  · rw [if_neg there]
    by_cases same : roundTo 3 clip.startTime = roundTo 3 cue.time
    · have other : existing.get? (roundTo 3 cue.time) ≠ some cue.time := by
        rw [← same, found]
        exact fun equal => there (Option.some.inj equal).symm
      simp [retitle, other]
    · simp [retitle, lastName?_append_singleton, same]

/-! ## The loop over the clips -/

/-- What the loop has made of the earlier cues after some of the clips: cues
are created only at rounded times that no earlier cue has, and each one has
the name of the last clip at its rounded time. -/
structure Generated
    (before : List LiveCue)
    (done : List ArrangementClip)
    (created : List ℚ)
    (state : LiveSong × Dict ℚ ℚ) : Prop where
  cues : state.1.cuePoints =
    (before ++ created.map unnamed).map (retitle state.2 done)
  known : state.2 = cueMap (before ++ created.map unnamed)
  new : ∀ time ∈ created, roundTo 3 time ∉ cueMap before
  starts : ∀ time ∈ created, ∃ clip ∈ done, clip.startTime = time
  finds : ∀ clip ∈ done, roundTo 3 clip.startTime ∈ state.2
  distinct : (created.map (roundTo 3)).Nodup

theorem generated_nil (song : LiveSong) :
    Generated song.cuePoints [] [] (song, cueMap song.cuePoints) where
  cues := by
    rw [List.map_nil, List.append_nil]
    refine ((List.map_congr_left ?_).trans (List.map_id _)).symm
    exact fun cue _ => retitle_of_lastName?_eq_none rfl _
  known := by simp
  new := by simp
  starts := by simp
  finds := by simp
  distinct := List.nodup_nil

variable {before : List LiveCue} {state : LiveSong × Dict ℚ ℚ}
  {clip : ArrangementClip}

/-- A clip at the rounded time of a cue names it. -/
theorem Generated.rename
    {time : ℚ}
    (generated : Generated before done created state)
    (found : state.2.get? (roundTo 3 clip.startTime) = some time) :
    Generated before (done ++ [clip]) created (generateCue state clip) := by
  obtain ⟨cues, known, new, starts, finds, distinct⟩ := generated
  have rounded : roundTo 3 time = roundTo 3 clip.startTime := by
    rw [known] at found
    exact (exists_of_get?_cueMap found).1
  have step : generateCue state clip =
      (state.1.nameCue clip.name time, state.2) := by
    simp only [generateCue, found]
  rw [step]
  refine ⟨?_, known, new, ?_, ?_, distinct⟩
  · rw [nameCue, cues, List.map_map]
    refine List.map_congr_left fun cue _ => ?_
    exact (retitle_append_singleton found rounded cue).symm
  · intro other member
    obtain ⟨start, inDone, same⟩ := starts other member
    exact ⟨start, List.mem_append_left _ inDone, same⟩
  · intro other member
    rcases List.mem_append.mp member with inDone | last
    · exact finds other inDone
    · obtain rfl := List.mem_singleton.mp last
      exact Dict.mem_of_get? found

/-- A clip where no cue has its rounded time gets one: nothing is there that a
toggle could delete. -/
theorem Generated.create
    (generated : Generated before done created state)
    (absent : roundTo 3 clip.startTime ∉ state.2) :
    Generated before (done ++ [clip]) (created ++ [clip.startTime])
      (generateCue state clip) := by
  obtain ⟨cues, known, new, starts, finds, distinct⟩ := generated
  have fresh : ∀ cue ∈ before ++ created.map unnamed,
      roundTo 3 cue.time ≠ roundTo 3 clip.startTime := by
    intro cue member same
    exact absent (known ▸ mem_cueMap.mpr ⟨cue, member, same⟩)
  have current : cueMap state.1.cuePoints = state.2 := by
    rw [cues, cueMap_map (time_retitle _ _), known]
  have toggled : (state.1.toggleCueAt clip.startTime).cuePoints =
      state.1.cuePoints ++ [unnamed clip.startTime] := by
    rw [cuePoints_toggleCueAt]
    refine toggle_of_not_mem ?_
    rw [cues, List.forall_mem_map]
    intro cue member same
    rw [time_retitle] at same
    exact fresh cue member (by rw [same])
  -- The map learns the new cue under the rounded start of the clip.
  have learned : cueMap (state.1.toggleCueAt clip.startTime).cuePoints =
      state.2.insert (roundTo 3 clip.startTime) clip.startTime := by
    rw [toggled, cueMap_append_singleton, current]
    rfl
  have step : generateCue state clip =
      ((state.1.toggleCueAt clip.startTime).nameCue clip.name clip.startTime,
        state.2.insert (roundTo 3 clip.startTime) clip.startTime) := by
    simp only [generateCue, Dict.get?_eq_none_iff.mpr absent, learned,
      Dict.get?_insert_self]
  have listed : before ++ (created ++ [clip.startTime]).map unnamed =
      (before ++ created.map unnamed) ++ [unnamed clip.startTime] := by
    rw [List.map_append, List.append_assoc]
    rfl
  rw [step]
  refine ⟨?_, ?_, ?_, ?_, ?_, ?_⟩
  · have unnamedYet : lastName? done
        (roundTo 3 (unnamed clip.startTime).time) = none := by
      rw [lastName?_eq_none_iff]
      intro other inDone same
      refine absent ?_
      rw [show roundTo 3 clip.startTime = roundTo 3 other.startTime from
        same.symm]
      exact finds other inDone
    have earlier : (state.1.toggleCueAt clip.startTime).cuePoints =
        (before ++ (created ++ [clip.startTime]).map unnamed).map (retitle
          (state.2.insert (roundTo 3 clip.startTime) clip.startTime)
          done) := by
      have others := List.map_congr_left fun cue member =>
        (retitle_insert_of_ne (fresh cue member) state.2 clip.startTime
          done).symm
      rw [toggled, cues, listed, others]
      simp only [List.map_append, List.map_singleton]
      rw [retitle_of_lastName?_eq_none unnamedYet]
    rw [nameCue, earlier, List.map_map]
    refine List.map_congr_left fun cue _ => ?_
    exact (retitle_append_singleton (Dict.get?_insert_self _ _ _) rfl
      cue).symm
  · rw [listed, cueMap_append_singleton, ← known]
    rfl
  · intro time member
    rcases List.mem_append.mp member with earlier | last
    · exact new time earlier
    · obtain rfl := List.mem_singleton.mp last
      intro present
      obtain ⟨cue, inBefore, same⟩ := mem_cueMap.mp present
      exact fresh cue (List.mem_append_left _ inBefore) same
  · intro time member
    rcases List.mem_append.mp member with earlier | last
    · obtain ⟨start, inDone, same⟩ := starts time earlier
      exact ⟨start, List.mem_append_left _ inDone, same⟩
    · obtain rfl := List.mem_singleton.mp last
      exact ⟨clip, List.mem_append_right _ List.mem_cons_self, rfl⟩
  · intro other member
    rw [Dict.mem_insert]
    rcases List.mem_append.mp member with inDone | last
    · exact Or.inr (finds other inDone)
    · obtain rfl := List.mem_singleton.mp last
      exact Or.inl rfl
  · rw [List.map_append, List.map_singleton]
    refine List.Nodup.append distinct (List.nodup_singleton _) ?_
    rw [List.disjoint_singleton]
    intro member
    obtain ⟨time, inCreated, same⟩ := List.mem_map.mp member
    exact fresh (unnamed time)
      (List.mem_append_right _ (List.mem_map_of_mem inCreated)) same

/-- Body of the loop. -/
theorem Generated.step
    (generated : Generated before done created state)
    (clip : ArrangementClip) :
    ∃ created', Generated before (done ++ [clip]) created'
      (generateCue state clip) := by
  cases found : state.2.get? (roundTo 3 clip.startTime) with
  | some time => exact ⟨created, generated.rename found⟩
  | none =>
      exact ⟨created ++ [clip.startTime],
        generated.create (Dict.get?_eq_none_iff.mp found)⟩

theorem exists_generated (song : LiveSong) (clips : List ArrangementClip) :
    ∃ created, Generated song.cuePoints clips created
      (clips.foldl generateCue (song, cueMap song.cuePoints)) := by
  induction clips using List.reverseRecOn with
  | nil => exact ⟨[], generated_nil song⟩
  | append_singleton early last inductionHypothesis =>
      obtain ⟨created, generated⟩ := inductionHypothesis
      rw [List.foldl_append]
      exact generated.step last

/-- The tempo is not touched. -/
theorem tempo_foldl_generateCue
    (clips : List ArrangementClip)
    (state : LiveSong × Dict ℚ ℚ) :
    (clips.foldl generateCue state).1.tempo = state.1.tempo := by
  induction clips generalizing state with
  | nil => rfl
  | cons clip rest inductionHypothesis =>
      rw [List.foldl_cons, inductionHypothesis, generateCue]
      split
      · rfl
      · dsimp only
        split <;> rfl

/-- The handler sets the playhead, and the cues to those of the loop. -/
theorem songGenerateCuesFromTrack_fst
    (song : LiveSong)
    (tracks : List LiveTrack)
    (params : List OscArgument) :
    (song.songGenerateCuesFromTrack tracks params).1 =
      { song with
        cuePoints :=
          (((clipsOn? tracks params).getD []).foldl generateCue
            (song, cueMap song.cuePoints)).1.cuePoints } := by
  unfold songGenerateCuesFromTrack
  split
  · rename_i nothing
    rw [nothing]
    rfl
  · rename_i nothing
    rw [nothing]
    rfl
  · rename_i clips _ found
    rw [found, Option.getD_some]
    simp only [LiveSong.mk.injEq, and_self, and_true]
    exact tempo_foldl_generateCue clips _

/-! ## What is left of the earlier cues -/

/-- No clip has the rounded time of the cue. -/
def Untouched (clips : List ArrangementClip) (cue : LiveCue) : Prop :=
  ∀ clip ∈ clips, roundTo 3 clip.startTime ≠ roundTo 3 cue.time

instance (clips : List ArrangementClip) : DecidablePred (Untouched clips) :=
  fun _ => inferInstanceAs (Decidable (∀ _ ∈ clips, _))

/-- Cues are only added and renamed, where clips start: each clip leaves its
name, unless a later one has the same rounded start. -/
structure AddsAndRenames
    (clips : List ArrangementClip)
    (before after : LiveSong) : Prop where
  kept : ∀ cue ∈ before.cuePoints, ∃ later ∈ after.cuePoints,
    later.time = cue.time
  untouched : after.cuePoints.filter (Untouched clips) =
    before.cuePoints.filter (Untouched clips)
  named : ∀ clip ∈ clips, ∃ cue ∈ after.cuePoints,
    roundTo 3 cue.time = roundTo 3 clip.startTime ∧
      lastName? clips (roundTo 3 clip.startTime) = some cue.name
  playhead : after.currentSongTime = before.currentSongTime

theorem Generated.kept
    (generated : Generated before clips created state)
    {cue : LiveCue}
    (member : cue ∈ before) :
    ∃ later ∈ state.1.cuePoints, later.time = cue.time := by
  rw [generated.cues]
  exact ⟨_, List.mem_map_of_mem (List.mem_append_left _ member),
    time_retitle state.2 clips cue⟩

theorem Generated.untouched
    (generated : Generated before clips created state) :
    state.1.cuePoints.filter (Untouched clips) =
      before.filter (Untouched clips) := by
  have sameTime : ∀ cue, Untouched clips (retitle state.2 clips cue) ↔
      Untouched clips cue := by
    intro cue
    rw [Untouched, time_retitle, Untouched]
  have noneCreated :
      (created.map unnamed).filter (Untouched clips) = [] := by
    rw [List.filter_eq_nil_iff, List.forall_mem_map]
    intro time member untouched
    obtain ⟨clip, inClips, rfl⟩ := generated.starts time member
    exact of_decide_eq_true untouched clip inClips rfl
  rw [generated.cues, List.filter_map]
  simp only [Function.comp_def, sameTime]
  rw [List.filter_append, noneCreated, List.append_nil]
  refine (List.map_congr_left ?_).trans (List.map_id _)
  intro cue member
  have untouched := of_decide_eq_true (List.mem_filter.mp member).2
  exact retitle_of_lastName?_eq_none (lastName?_eq_none_iff.mpr untouched) _

theorem Generated.named
    (generated : Generated before clips created state)
    {clip : ArrangementClip}
    (member : clip ∈ clips) :
    ∃ cue ∈ state.1.cuePoints,
      roundTo 3 cue.time = roundTo 3 clip.startTime ∧
        lastName? clips (roundTo 3 clip.startTime) = some cue.name := by
  obtain ⟨time, found⟩ :=
    Dict.mem_iff_exists_get?.mp (generated.finds clip member)
  have fromMap := found
  rw [generated.known] at fromMap
  obtain ⟨rounded, cue, inBase, rfl⟩ := exists_of_get?_cueMap fromMap
  obtain ⟨name, last⟩ : ∃ name,
      lastName? clips (roundTo 3 clip.startTime) = some name := by
    rw [← Option.ne_none_iff_exists', Ne, lastName?_eq_none_iff]
    exact fun noClip => noClip clip member rfl
  refine ⟨retitle state.2 clips cue, ?_, ?_, ?_⟩
  · rw [generated.cues]
    exact List.mem_map_of_mem inBase
  · rw [time_retitle, rounded]
  · simp [retitle, rounded, found, last]

/-- Where every clip has a cue already, nothing is created. -/
theorem Generated.created_eq_nil
    (generated : Generated before clips created state)
    (present : ∀ clip ∈ clips, roundTo 3 clip.startTime ∈ cueMap before) :
    created = [] := by
  rw [List.eq_nil_iff_forall_not_mem]
  intro time member
  obtain ⟨clip, inClips, rfl⟩ := generated.starts time member
  exact generated.new clip.startTime member (present clip inClips)

/-- The same clips find their cues and give them the names they have. -/
theorem Generated.again
    (generated : Generated before clips created state)
    {later : LiveSong × Dict ℚ ℚ} {more : List ℚ}
    (again : Generated state.1.cuePoints clips more later) :
    later.1.cuePoints = state.1.cuePoints := by
  have current : cueMap state.1.cuePoints = state.2 := by
    rw [generated.cues, cueMap_map (time_retitle _ _), generated.known]
  obtain rfl := again.created_eq_nil (current ▸ generated.finds)
  have same : later.2 = state.2 := by
    rw [again.known, List.map_nil, List.append_nil, current]
  rw [again.cues, same, List.map_nil, List.append_nil, generated.cues,
    List.map_map]
  exact List.map_congr_left fun cue _ => retitle_retitle state.2 clips cue

/-- Generating cues from a track only adds and renames cues where its clips
start, and doing it again changes nothing. -/
theorem addsAndRenames_songGenerateCuesFromTrack
    (song : LiveSong)
    (tracks : List LiveTrack)
    (params : List OscArgument) :
    AddsAndRenames ((clipsOn? tracks params).getD []) song
        (song.songGenerateCuesFromTrack tracks params).1 ∧
      ((song.songGenerateCuesFromTrack tracks
        params).1.songGenerateCuesFromTrack tracks params).1 =
          (song.songGenerateCuesFromTrack tracks params).1 := by
  obtain ⟨created, generated⟩ :=
    exists_generated song ((clipsOn? tracks params).getD [])
  obtain ⟨more, again⟩ := exists_generated
    (song.songGenerateCuesFromTrack tracks params).1
    ((clipsOn? tracks params).getD [])
  have result := songGenerateCuesFromTrack_fst song tracks params
  refine ⟨⟨?_, ?_, ?_, ?_⟩, ?_⟩
  · rw [result]
    exact fun cue member => generated.kept member
  · rw [result]
    exact generated.untouched
  · rw [result]
    exact fun clip member => generated.named member
  · rw [result]
  · have cues : (song.songGenerateCuesFromTrack tracks params).1.cuePoints =
        (((clipsOn? tracks params).getD []).foldl generateCue
          (song, cueMap song.cuePoints)).1.cuePoints := by
      rw [result]
    rw [cues] at again
    rw [songGenerateCuesFromTrack_fst, cues, generated.again again, ← cues]

-- Two clips within a thousandth of a beat share a cue.
example :
    let clips := [⟨"Verse", 4⟩, ⟨"Chorus", 4 + 1 / 4000⟩]
    (songGenerateCuesFromTrack {}
      [{ name := "Cues", arrangementClips := some clips }]
      []).1.cuePoints = [⟨"Chorus", 4⟩] := by
  decide +kernel

end LiveSong
end AbletonTracks
