import AbletonTracks.Library.Toggle
import AbletonTracks.Remote.Analysis
import Mathlib.Data.List.Perm.Subperm

/-!
# Replacing all cues

`song_replace_all_cues` has one operation for deleting and for creating a cue:
it moves the playhead to a beat and toggles.  The first loop meets a cue at
every beat it goes to, so it clears the list.  The second loop creates a cue
only where there is none yet: two pairs that snap to one beat undo each other.
-/

namespace AbletonTracks

open Library

namespace LiveSong

variable {song : LiveSong} {cues : List LiveCue}
  {pairs : List (String × ℚ)} {pair : String × ℚ}

/-- No two cues of the song lie at one beat. -/
def DistinctTimes (song : LiveSong) : Prop :=
  (song.cuePoints.map LiveCue.time).Nodup

instance (song : LiveSong) : Decidable song.DistinctTimes :=
  inferInstanceAs (Decidable (List.Nodup _))

/-- A cue without a name. -/
def unnamed (time : ℚ) : LiveCue := ⟨"", time⟩

/-! ## Toggling cues -/

theorem cuePoints_toggleCueAt (song : LiveSong) (beat : ℚ) :
    (song.toggleCueAt beat).cuePoints =
      toggle LiveCue.time unnamed song.cuePoints beat := rfl

theorem map_time_nameNearest
    (name : String)
    (beat : ℚ)
    (cues : List LiveCue) :
    (nameNearest name beat cues).map LiveCue.time = cues.map LiveCue.time := by
  induction cues with
  | nil => rfl
  | cons cue rest inductionHypothesis =>
      rw [nameNearest]
      split
      · rfl
      · rw [List.map_cons, List.map_cons, inductionHypothesis]

/-- A new cue gets its name when no other one is near. -/
theorem nameNearest_append
    (apart : ∀ cue ∈ cues, 1 / 2 ≤ |cue.time - pair.2|) :
    nameNearest pair.1 pair.2 (cues ++ [unnamed pair.2]) =
      cues ++ [⟨pair.1, pair.2⟩] := by
  induction cues with
  | nil => simp [nameNearest, unnamed]
  | cons cue rest inductionHypothesis =>
      obtain ⟨far, others⟩ := List.forall_mem_cons.mp apart
      rw [List.cons_append, nameNearest,
        if_neg (not_lt.mpr (half_le_abs_toDouble far)),
        inductionHypothesis others, List.cons_append]

/-- Where no cue is near, a cue is created. -/
theorem cuePoints_createCue
    (apart : ∀ cue ∈ song.cuePoints, 1 / 2 ≤ |cue.time - pair.2|) :
    (song.createCue pair).cuePoints =
      song.cuePoints ++ [⟨pair.1, pair.2⟩] := by
  have absent : ∀ cue ∈ song.cuePoints, cue.time ≠ pair.2 := by
    rintro cue member same
    have far := apart cue member
    rw [same, sub_self, abs_zero] at far
    norm_num at far
  rw [createCue, cuePoints_toggleCueAt, toggle_of_not_mem absent]
  exact nameNearest_append apart

/-- The first loop clears the list. -/
theorem cuePoints_foldl_toggleCueAt
    (distinct : song.DistinctTimes)
    (bpm : ℚ) :
    (song.cuePoints.foldl
      (fun (song : LiveSong) cue => song.toggleCueAt cue.time)
      { song with tempo := bpm }).cuePoints = [] := by
  have toggles : ∀ (left : List LiveCue) (current : LiveSong),
      (left.foldl (fun (song : LiveSong) cue => song.toggleCueAt cue.time)
        current).cuePoints =
      left.foldl (fun cues cue => toggle LiveCue.time unnamed cues cue.time)
        current.cuePoints := by
    intro left
    induction left with
    | nil => exact fun _ => rfl
    | cons cue rest inductionHypothesis =>
        intro current
        rw [List.foldl_cons, inductionHypothesis, cuePoints_toggleCueAt,
          List.foldl_cons]
  rw [toggles]
  exact foldl_toggle_self distinct

/-- The second loop leaves distinct cues, each at the beat of a pair. -/
theorem times_foldl_createCue
    (cleared : song.cuePoints = [])
    (pairs : List (String × ℚ)) :
    ((pairs.foldl createCue song).cuePoints.map LiveCue.time).Nodup ∧
      (pairs.foldl createCue song).cuePoints.map LiveCue.time ⊆
        pairs.map Prod.snd := by
  induction pairs using List.reverseRecOn with
  | nil => simp [cleared]
  | append_singleton early last inductionHypothesis =>
      obtain ⟨distinct, within⟩ := inductionHypothesis
      rw [List.foldl_append, List.foldl_cons, List.foldl_nil, createCue]
      simp only [map_time_nameNearest, cuePoints_toggleCueAt]
      refine ⟨nodup_map_toggle (fun _ => rfl) distinct last.2, ?_⟩
      intro time member
      obtain ⟨cue, inToggled, rfl⟩ := List.mem_map.mp member
      rw [List.map_append, List.mem_append]
      rcases mem_of_mem_toggle inToggled with before | rfl
      · exact Or.inl (within (List.mem_map_of_mem before))
      · exact Or.inr (by simp [unnamed])

/-- The second loop creates a cue for each pair, when no two are near. -/
theorem cuePoints_foldl_createCue
    (cleared : song.cuePoints = [])
    (apart : pairs.Pairwise fun early late => 1 / 2 ≤ |early.2 - late.2|) :
    (pairs.foldl createCue song).cuePoints =
      pairs.map fun pair => ⟨pair.1, pair.2⟩ := by
  induction pairs using List.reverseRecOn with
  | nil => exact cleared
  | append_singleton early last inductionHypothesis =>
      obtain ⟨earlier, _, far⟩ := List.pairwise_append.mp apart
      have created := inductionHypothesis earlier
      rw [List.foldl_append, List.foldl_cons, List.foldl_nil,
        cuePoints_createCue, created, List.map_append]
      · rfl
      · rw [created]
        intro cue member
        obtain ⟨pair, inEarly, rfl⟩ := List.mem_map.mp member
        exact far pair inEarly last List.mem_cons_self

end LiveSong

namespace CueData

variable {data : CueData}

/-- The beat of a time, if it has one in the song. -/
def place? (data : CueData) (seconds : Floating) : Option ℚ :=
  match data.beat seconds with
  | .ok beat => beat.number?
  | .error _ => none

/-- The pairs that have one. -/
def placed (data : CueData) : List (String × ℚ) :=
  data.cues.filterMap fun cue =>
    (data.place? cue.2).map fun beat => (cue.1, beat)

/-- Nothing overflows when it is rounded, the times that are not negative are
those that have a beat in the song, and no two have the same. -/
structure SnapsApart (data : CueData) : Prop where
  rounds : ∀ cue ∈ data.cues, data.beat cue.2 ≠ .error .overflowError
  placed : ∀ cue ∈ data.cues,
    cue.2.nonneg = true ↔ (data.place? cue.2).isSome = true
  distinct : (data.placed.map Prod.snd).Nodup

instance (data : CueData) : Decidable data.SnapsApart :=
  decidable_of_iff
    ((∀ cue ∈ data.cues, data.beat cue.2 ≠ .error .overflowError) ∧
      (∀ cue ∈ data.cues,
        cue.2.nonneg = true ↔ (data.place? cue.2).isSome = true) ∧
      (data.placed.map Prod.snd).Nodup)
    ⟨fun ⟨rounds, placed, distinct⟩ => ⟨rounds, placed, distinct⟩,
      fun ⟨rounds, placed, distinct⟩ => ⟨rounds, placed, distinct⟩⟩

/-- A beat counts whole beats from where the clip starts. -/
theorem exists_of_place?
    {seconds : Floating} {beat : ℚ}
    (lies : data.place? seconds = some beat) :
    ∃ (nearest : ℤ) (start : ℚ), data.clipStartBeat = .finite start ∧
      beat = toDouble (nearest + start) := by
  simp only [place?, CueData.beat, bind, Except.bind, pure, Except.pure]
    at lies
  split at lies
  · rename_i sum added
    split at added
    · cases added
    obtain rfl := Except.ok.inj added
    rename_i nearest _
    cases total : (Floating.finite nearest).add data.clipStartBeat with
    | finite whole =>
        rw [total] at lies
        obtain rfl := Option.some.inj lies
        obtain ⟨_, start, first, begins, rfl⟩ :=
          Floating.exists_of_add_eq_finite total
        obtain rfl := Floating.finite.inj first
        exact ⟨nearest, start, begins, rfl⟩
    | infinite | nan =>
        rw [total] at lies
        cases lies
  · cases lies

/-- Beats that differ are half a beat apart. -/
theorem half_le_of_place?
    {early late : Floating} {first second : ℚ}
    (earlyLies : data.place? early = some first)
    (lateLies : data.place? late = some second)
    (different : first ≠ second) :
    1 / 2 ≤ |first - second| := by
  obtain ⟨_, start, begins, rfl⟩ := exists_of_place? earlyLies
  obtain ⟨_, _, same, rfl⟩ := exists_of_place? lateLies
  obtain rfl := Floating.finite.inj (begins.symm.trans same)
  exact half_le_of_add_ne different

theorem mem_placed {pair : String × ℚ} :
    pair ∈ data.placed ↔
      ∃ cue ∈ data.cues, cue.1 = pair.1 ∧ data.place? cue.2 = some pair.2 := by
  simp only [placed, List.mem_filterMap, Option.map_eq_some_iff]
  constructor
  · rintro ⟨cue, listed, beat, lies, rfl⟩
    exact ⟨cue, listed, rfl, lies⟩
  · rintro ⟨cue, listed, named, lies⟩
    exact ⟨cue, listed, pair.2, lies, by rw [named]⟩

theorem placed_apart (distinct : (data.placed.map Prod.snd).Nodup) :
    data.placed.Pairwise fun early late => 1 / 2 ≤ |early.2 - late.2| := by
  rw [List.Nodup, List.pairwise_map] at distinct
  refine distinct.imp_of_mem ?_
  intro early late earlyMember lateMember different
  obtain ⟨_, _, _, earlyLies⟩ := mem_placed.mp earlyMember
  obtain ⟨_, _, _, lateLies⟩ := mem_placed.mp lateMember
  exact half_le_of_place? earlyLies lateLies different

/-- The loop raises where a time overflows. -/
theorem pairsOf_eq_none_iff {cues : List (String × Floating)} :
    data.pairsOf cues = none ↔
      ∃ cue ∈ cues, data.beat cue.2 = .error .overflowError := by
  fun_induction pairsOf data cues with
  | case1 => simp
  | case2 cue rest beat beats inductionHypothesis =>
      rw [Option.map_eq_none_iff, inductionHypothesis, List.exists_mem_cons_iff,
        beats]
      simp
  | case3 cue rest beats inductionHypothesis =>
      rw [inductionHypothesis, List.exists_mem_cons_iff, beats]
      simp
  | case4 cue rest beats =>
      exact iff_of_true rfl ⟨cue, List.mem_cons_self, beats⟩

/-- It keeps the others that have a beat. -/
theorem accepted_of_pairsOf
    {cues pairs : List (String × Floating)}
    (kept : data.pairsOf cues = some pairs) :
    LiveSong.accepted pairs = cues.filterMap fun cue =>
      (data.place? cue.2).map fun beat => (cue.1, beat) := by
  fun_induction pairsOf data cues generalizing pairs with
  | case1 =>
      obtain rfl := Option.some.inj kept
      rfl
  | case2 cue rest beat beats inductionHypothesis =>
      obtain ⟨others, keptRest, rfl⟩ := Option.map_eq_some_iff.mp kept
      have lies : data.place? cue.2 = beat.number? := by
        simp only [place?, beats]
      rw [LiveSong.accepted, List.filterMap_cons, List.filterMap_cons, lies,
        ← inductionHypothesis keptRest, LiveSong.accepted]
  | case3 cue rest beats inductionHypothesis =>
      have nowhere : data.place? cue.2 = none := by
        simp only [place?, beats]
      rw [inductionHypothesis kept, List.filterMap_cons, nowhere]
      rfl
  | case4 cue rest beats => cases kept

end CueData

namespace LiveSong

variable {song : LiveSong} {params : List OscArgument} {data : CueData}

/-- The song has exactly one cue at the beat of each pair whose time is not
negative, every cue has the name and the beat of such a pair, the playhead is
where it was, and the result is the number of cues. -/
structure Replaced
    (song : LiveSong)
    (data : CueData)
    (result : LiveSong × Option Nat) : Prop where
  one : ∀ cue ∈ data.cues, cue.2.nonneg = true → ∃ beat created,
    data.place? cue.2 = some beat ∧
      (result.1.cuePoints.filter fun cue => cue.time = beat) = [created]
  named : ∀ created ∈ result.1.cuePoints, ∃ cue ∈ data.cues,
    cue.2.nonneg = true ∧ cue.1 = created.name ∧
      data.place? cue.2 = some created.time
  playhead : result.1.currentSongTime = song.currentSongTime
  count : result.2 = some result.1.cuePoints.length

theorem replaced_of_snapsApart
    {tempo : ℚ}
    (distinct : song.DistinctTimes)
    (apart : data.SnapsApart) :
    song.Replaced data
      (Prod.map id some (song.replaceCues tempo data.placed)) := by
  obtain ⟨_, placed, beats⟩ := apart
  have created := cuePoints_foldl_createCue
    (cuePoints_foldl_toggleCueAt distinct tempo) (CueData.placed_apart beats)
  refine ⟨?_, ?_, rfl, ?_⟩
  · intro cue member valid
    obtain ⟨beat, lies⟩ :=
      Option.isSome_iff_exists.mp ((placed cue member).mp valid)
    have listed : (cue.1, beat) ∈ data.placed :=
      CueData.mem_placed.mpr ⟨cue, member, rfl, lies⟩
    have times : ((data.placed.map fun pair =>
        (⟨pair.1, pair.2⟩ : LiveCue)).map LiveCue.time).Nodup := by
      rw [List.map_map]
      exact beats
    simp only [replaceCues, created, Prod.map]
    exact ⟨beat, _, lies, filter_key_eq times (List.mem_map_of_mem listed)⟩
  · simp only [replaceCues, created, Prod.map]
    intro cue member
    obtain ⟨pair, inPairs, rfl⟩ := List.mem_map.mp member
    obtain ⟨cue, listed, named, lies⟩ := CueData.mem_placed.mp inPairs
    exact ⟨cue, listed, (placed cue listed).mpr (by rw [lies]; rfl), named,
      lies⟩
  · simp only [replaceCues, created, Prod.map, id, List.length_map]

theorem snapsApart_of_replaced
    {tempo : ℚ}
    (distinct : song.DistinctTimes)
    (rounds : ∀ cue ∈ data.cues, data.beat cue.2 ≠ .error .overflowError)
    (replaced : song.Replaced data
      (Prod.map id some (song.replaceCues tempo data.placed))) :
    data.SnapsApart := by
  obtain ⟨times, within⟩ := times_foldl_createCue
    (cuePoints_foldl_toggleCueAt distinct tempo) data.placed
  -- As many distinct beats come out as pairs went in.
  have count : data.placed.length =
      (song.replaceCues tempo data.placed).1.cuePoints.length :=
    Option.some.inj replaced.count
  have same := (times.subperm within).perm_of_length_le
    (by rw [List.length_map, List.length_map]; exact count.le)
  have beats := same.nodup_iff.mp times
  refine ⟨rounds, fun cue member => ⟨fun valid => ?_, fun lies => ?_⟩, beats⟩
  · obtain ⟨beat, _, lies, _⟩ := replaced.one cue member valid
    rw [lies]
    rfl
  · obtain ⟨beat, lies⟩ := Option.isSome_iff_exists.mp lies
    have listed : (cue.1, beat) ∈ data.placed :=
      CueData.mem_placed.mpr ⟨cue, member, rfl, lies⟩
    obtain ⟨created, inSong, rfl⟩ := List.mem_map.mp
      (same.mem_iff.mpr (List.mem_map_of_mem (f := Prod.snd) listed))
    obtain ⟨valid, asked, nonneg, _, there⟩ := replaced.named created inSong
    -- The pair that named the cue there is this one.
    simp only [CueData.placed, List.map_filterMap, Option.map_map,
      Function.comp_def, Option.map_id'] at beats
    have own : valid = cue :=
      eq_of_nodup_filterMap beats asked member there lies
    exact own ▸ nonneg

/-- Replacing all cues leaves exactly the requested ones, exactly when no beat
overflows, the times that are not negative are those with a beat in the song,
and no two pairs snap to the same beat. -/
theorem replaced_iff_snapsApart
    (distinct : song.DistinctTimes)
    (reads : CueData.read? params = some data)
    (some' : ∃ cue ∈ data.cues, cue.2.nonneg = true) :
    song.Replaced data (song.songReplaceAllCues params) ↔
      data.SnapsApart := by
  obtain ⟨cue, listed, valid⟩ := some'
  cases raises : data.pairs? with
  | none =>
    obtain ⟨large, member, overflows⟩ := CueData.pairsOf_eq_none_iff.mp raises
    simp only [songReplaceAllCues, reads, raises]
    constructor
    · intro replaced
      cases replaced.count
    · intro apart
      exact absurd overflows (apart.rounds large member)
  | some pairs =>
    have accepts : accepted pairs = data.placed :=
      CueData.accepted_of_pairsOf raises
    have rounds : ∀ cue ∈ data.cues,
        data.beat cue.2 ≠ .error .overflowError := by
      intro large member overflows
      have none := CueData.pairsOf_eq_none_iff.mpr ⟨large, member, overflows⟩
      cases none.symm.trans raises
    simp only [songReplaceAllCues, reads, raises]
    cases pairs with
    | nil =>
        have nowhere : data.place? cue.2 = none := by
          by_contra lies
          obtain ⟨beat, lies⟩ := Option.ne_none_iff_exists'.mp lies
          have placed : (cue.1, beat) ∈ data.placed :=
            CueData.mem_placed.mpr ⟨cue, listed, rfl, lies⟩
          rw [← accepts] at placed
          cases placed
        constructor
        · intro replaced
          obtain ⟨beat, _, lies, _⟩ := replaced.one cue listed valid
          rw [nowhere] at lies
          cases lies
        · intro apart
          have lies := (apart.placed cue listed).mp valid
          rw [nowhere] at lies
          cases lies
    | cons first rest =>
        simp only [accepts]
        exact ⟨snapsApart_of_replaced distinct rounds,
          replaced_of_snapsApart distinct⟩

/-- A header and a section two bars later replace the cue of an older set. -/
theorem replaced_iff_snapsApart_verse :
    LiveSong.Replaced { cuePoints := [⟨"Old", 3⟩] }
      ⟨.finite 120, .finite 0,
        [("== Amazing Grace ==", .finite 0), ("Verse", .finite 4)]⟩
      (songReplaceAllCues { cuePoints := [⟨"Old", 3⟩] }
        ([.float 120, .float 0, .string "== Amazing Grace ==", .float 0,
          .string "Verse", .float 4].map OscValue.argument)) :=
  (replaced_iff_snapsApart (by decide +kernel) (by decide +kernel)
    ⟨_, List.mem_cons_self, by decide +kernel⟩).mpr (by decide +kernel)

/-- A header, and a section three eighths of a beat later. -/
private def earlySection : List OscArgument :=
  [.float 60, .float 0, .string "== Amazing Grace ==", .float 0,
    .string "Intro", .float (3 / 8)].map OscValue.argument

/-- A header, and a section at an infinite time. -/
private def endlessSection : List OscArgument :=
  [.float 60, .float 0, .string "== Amazing Grace ==", .float 0,
    .string "Outro"].map OscValue.argument ++
      [⟨"inf", some (.infinite false), none, true, false⟩]

/-- A section less than half a beat after the header takes it away again: no
cue is left, and two are reported.  One at an infinite time raises, and the old
cues stay. -/
theorem not_replaced_of_sameBeat :
    (∃ data, CueData.read? earlySection = some data ∧
      songReplaceAllCues {} earlySection = ({ tempo := 60 }, some 2) ∧
      ¬LiveSong.Replaced {} data (songReplaceAllCues {} earlySection)) ∧
    ∃ data, CueData.read? endlessSection = some data ∧
      songReplaceAllCues { cuePoints := [⟨"Old", 3⟩] } endlessSection =
        ({ cuePoints := [⟨"Old", 3⟩] }, none) ∧
      ¬LiveSong.Replaced { cuePoints := [⟨"Old", 3⟩] } data
        (songReplaceAllCues { cuePoints := [⟨"Old", 3⟩] } endlessSection) := by
  have created : songReplaceAllCues {} earlySection =
      ({ tempo := 60 }, some 2) := by
    decide +kernel
  have raised : songReplaceAllCues { cuePoints := [⟨"Old", 3⟩] }
      endlessSection = ({ cuePoints := [⟨"Old", 3⟩] }, none) := by
    decide +kernel
  refine ⟨⟨⟨.finite 60, .finite 0, [("== Amazing Grace ==", .finite 0),
    ("Intro", .finite (3 / 8))]⟩, by decide +kernel, created, ?_⟩,
    ⟨.finite 60, .finite 0, [("== Amazing Grace ==", .finite 0),
      ("Outro", .infinite false)]⟩, by decide +kernel, raised, ?_⟩
  · intro replaced
    have count := replaced.count
    rw [created] at count
    cases count
  · intro replaced
    have count := replaced.count
    rw [raised] at count
    cases count

end LiveSong
end AbletonTracks
