import AbletonTracks.Parser.Headed
import AbletonTracks.Parser.Headers

/-!
# Writing a set down

A set can be planned song by song, and written down as markers: a song with a
title opens with a header, and one without a title with a start keyword.
Whatever the order in which Ableton lists the markers, the set is read back as
it was planned, if its names can be read at all.
-/

namespace AbletonTracks

open Library

/-- How a planned song opens. -/
inductive SongOpening
  | titled (title : String)
  | untitled (keyword : String)
  deriving DecidableEq

/-- A song as it is planned, with the markers of its further sections. -/
structure PlannedSong where
  opening : SongOpening
  position : ℚ
  sections : List CuePoint := []
  deriving DecidableEq

namespace SongOpening

/-- The name of the marker. -/
def marker : SongOpening → String
  | titled title => "== " ++ title ++ " =="
  | untitled keyword => keyword

/-- The name of the first section. -/
def sectionName : SongOpening → String
  | titled _ => "Start"
  | untitled keyword => keyword

/-- The name of the song, which is the one with this number. -/
def songName (number : Nat) : SongOpening → String
  | titled title => title
  | untitled _ => "Song " ++ toString number

/-- The marker is read as what it was written for. -/
def Readable : SongOpening → Prop
  | titled title =>
      Parser.songHeader? ("== " ++ title ++ " ==") = some title
  | untitled keyword =>
      Text.strip keyword = keyword ∧ Parser.songHeader? keyword = none ∧
        Parser.isSongStart keyword = true

instance : DecidablePred Readable
  | titled _ => inferInstanceAs (Decidable (_ = _))
  | untitled _ => inferInstanceAs (Decidable (_ ∧ _ ∧ _))

end SongOpening

namespace PlannedSong

/-- The marker that opens the song. -/
def header (song : PlannedSong) : CuePoint :=
  ⟨song.opening.marker, song.position⟩

/-- The markers of the song. -/
def markers (song : PlannedSong) : List CuePoint :=
  song.header :: song.sections

/-- All the markers are read as what they were written for. -/
def Readable (song : PlannedSong) : Prop :=
  song.opening.Readable ∧ ∀ cue ∈ song.sections,
    Text.strip cue.name = cue.name ∧ Parser.startsSong cue = false

instance : DecidablePred Readable :=
  fun _ => inferInstanceAs (Decidable (_ ∧ ∀ cue ∈ _, _))

/-- The song that is to be read, as one with this many before it, where
Ableton lists the markers as given. -/
def shown
    (listed : List CuePoint)
    (song : PlannedSong)
    (count : Nat) : Song where
  name := song.opening.songName (count + 1)
  position := song.position
  sections :=
    ⟨song.opening.sectionName, song.position, listed.idxOf song.header, false,
      none⟩ ::
    song.sections.map fun cue =>
      ⟨cue.name, cue.position, listed.idxOf cue,
        Parser.isLoopSection cue.name, none⟩

end PlannedSong

namespace Parser

/-- The markers of a planned set. -/
def planMarkers (setList : List PlannedSong) : List CuePoint :=
  setList.flatMap PlannedSong.markers

/-- The songs that are to be read. -/
def planned
    (listed : List CuePoint)
    (setList : List PlannedSong) : List Song :=
  annotateSectionLengths
    (setList.zipIdx.map fun entry => entry.1.shown listed entry.2)

variable {index : Dict (String × ℚ) Nat} {listed cues : List CuePoint}
  {setList : List PlannedSong} {song : PlannedSong}

theorem strip_header (title : String) :
    Text.strip ("== " ++ title ++ " ==") = "== " ++ title ++ " ==" := by
  rw [quoted_title, strip_quoted]

variable (index) in
/-- How a readable song opens. -/
theorem opening?_header
    (readable : song.opening.Readable)
    (count : Nat) :
    opening? index count song.header =
      some ⟨song.opening.songName (count + 1), song.position,
        some (song.opening.sectionName,
          (index.get? (markerKey song.header)).getD 0)⟩ := by
  obtain ⟨opening, position, sections⟩ := song
  cases opening with
  | titled title =>
      have header : songHeader? ("== " ++ title ++ " ==") = some title :=
        readable
      simp [opening?, PlannedSong.header, SongOpening.marker, strip_header,
        header, SongOpening.songName, SongOpening.sectionName]
  | untitled keyword =>
      obtain ⟨trimmed, none', starts⟩ := readable
      simp [opening?, PlannedSong.header, SongOpening.marker, trimmed, none',
        starts, SongOpening.songName, SongOpening.sectionName]

/-- A song that opens as it was planned is readable. -/
theorem readable_of_opening?
    {count place : Nat} {position : ℚ}
    (opens : opening? index count song.header =
      some ⟨song.opening.songName (count + 1), position,
        some (song.opening.sectionName, place)⟩) :
    song.opening.Readable := by
  obtain ⟨opening, position', sections⟩ := song
  cases opening with
  | titled title =>
      change opening? index count ⟨"== " ++ title ++ " ==", position'⟩ =
        some ⟨title, position, some ("Start", place)⟩ at opens
      simp only [opening?, strip_header] at opens
      split at opens
      · rename_i read header
        obtain ⟨rfl, _⟩ := Opening.mk.inj (Option.some.inj opens)
        exact header
      · split at opens
        · obtain ⟨_, _, first⟩ := Opening.mk.inj (Option.some.inj opens)
          obtain ⟨impossible, _⟩ := Prod.mk.inj (Option.some.inj first)
          have letters := congrArg (List.head? ∘ String.toList) impossible
          rw [quoted_title] at letters
          simp at letters
        · cases opens
  | untitled keyword =>
      change opening? index count ⟨keyword, position'⟩ =
        some ⟨_, position, some (keyword, place)⟩ at opens
      simp only [opening?] at opens
      split at opens
      · rename_i read header
        obtain ⟨_, _, first⟩ := Opening.mk.inj (Option.some.inj opens)
        obtain ⟨rfl, _⟩ := Prod.mk.inj (Option.some.inj first)
        have none' : songHeader? (Text.strip "Start") = none := by
          decide +kernel
        rw [none'] at header
        cases header
      · rename_i none'
        split at opens
        · rename_i starts
          obtain ⟨_, _, first⟩ := Opening.mk.inj (Option.some.inj opens)
          obtain ⟨trimmed, _⟩ := Prod.mk.inj (Option.some.inj first)
          rw [trimmed] at none' starts
          exact ⟨trimmed, none', starts⟩
        · cases opens

/-! ## Reading -/

/-- A cue that opens a song has a section of the name of the opening. -/
theorem sectionOf_of_opening?
    {count : Nat} {cue : CuePoint} {entry : Opening}
    (opens : opening? index count cue = some entry) :
    startsSong cue = true ∧
      entry.first = some (sectionName cue,
        (index.get? (markerKey cue)).getD 0) ∧
      entry.position = cue.position := by
  unfold opening? at opens
  dsimp only at opens
  split at opens
  · rename_i title header
    obtain rfl := Option.some.inj opens
    simp [startsSong, sectionName, header]
  · rename_i none'
    split at opens
    · rename_i starts
      obtain rfl := Option.some.inj opens
      simp [startsSong, sectionName, none', starts]
    · cases opens

theorem addCue_of_opening?
    {songs : List Song} {cue : CuePoint} {entry : Opening}
    (opens : opening? index songs.length cue = some entry) :
    addCue index songs cue =
      songs ++ [⟨entry.title, cue.position, [sectionOf index cue]⟩] := by
  obtain ⟨starts, _⟩ := sectionOf_of_opening? opens
  unfold opening? at opens
  unfold addCue sectionOf
  dsimp only at opens ⊢
  rw [starts]
  split at opens
  · rename_i title header
    obtain rfl := Option.some.inj opens
    simp [sectionName, header, markerKey]
  · rename_i none'
    split at opens
    · rename_i keyword
      obtain rfl := Option.some.inj opens
      simp [sectionName, none', keyword, markerKey]
    · cases opens

/-- Markers that start no song join the last one. -/
theorem foldl_addCue_sections
    (follow : ∀ cue ∈ cues, startsSong cue = false)
    (songs : List Song)
    (last : Song) :
    cues.foldl (addCue index) (songs ++ [last]) =
      songs ++ [{ last with
        sections := last.sections ++ cues.map (sectionOf index) }] := by
  induction cues generalizing last with
  | nil => simp
  | cons cue rest inductionHypothesis =>
      rw [List.forall_mem_cons] at follow
      have plain := follow.1
      simp only [startsSong, Bool.or_eq_false_iff,
        Option.isSome_eq_false_iff, Option.isNone_iff_eq_none] at plain
      have joined : addCue index (songs ++ [last]) cue =
          songs ++ [{ last with
            sections := last.sections ++ [sectionOf index cue] }] := by
        simp [addCue, plain, addSection, sectionOf, sectionName, startsSong,
          markerKey]
      rw [List.foldl_cons, joined, inductionHypothesis follow.2]
      simp

/-- A readable song is read behind whatever was read before. -/
theorem foldl_addCue_markers
    (readable : song.Readable)
    (songs : List Song) :
    song.markers.foldl (addCue index) songs =
      songs ++ [⟨song.opening.songName (songs.length + 1), song.position,
        song.markers.map (sectionOf index)⟩] := by
  rw [PlannedSong.markers, List.foldl_cons,
    addCue_of_opening? (opening?_header index readable.1 songs.length),
    foldl_addCue_sections fun cue member => (readable.2 cue member).2]
  rfl

/-- A readable set is read song by song. -/
theorem foldl_addCue_planMarkers
    (readable : ∀ song ∈ setList, song.Readable)
    (songs : List Song) :
    (planMarkers setList).foldl (addCue index) songs =
      songs ++ (setList.zipIdx songs.length).map fun entry =>
        ⟨entry.1.opening.songName (entry.2 + 1), entry.1.position,
          entry.1.markers.map (sectionOf index)⟩ := by
  induction setList generalizing songs with
  | nil => simp [planMarkers]
  | cons song rest inductionHypothesis =>
      rw [List.forall_mem_cons] at readable
      have later := inductionHypothesis readable.2
      unfold planMarkers at later ⊢
      rw [List.flatMap_cons, List.foldl_append,
        foldl_addCue_markers readable.1, later]
      simp

/-- A readable marker becomes the section that it was written for. -/
theorem map_sectionOf_markers
    (readable : song.Readable)
    (found : ∀ cue ∈ song.markers,
      index.get? (markerKey cue) = some (listed.idxOf cue))
    (count : Nat) :
    song.markers.map (sectionOf index) =
      (song.shown listed count).sections := by
  have opens : sectionOf index song.header =
      ⟨song.opening.sectionName, song.position, listed.idxOf song.header,
        false, none⟩ := by
    obtain ⟨starts, first, _⟩ :=
      sectionOf_of_opening? (opening?_header index readable.1 0)
    obtain ⟨name, _⟩ := Prod.mk.inj (Option.some.inj first)
    rw [sectionOf, found _ List.mem_cons_self, starts, ← name]
    rfl
  rw [PlannedSong.markers, List.map_cons, opens]
  refine congrArg _ (List.map_congr_left fun cue member => ?_)
  obtain ⟨trimmed, follows⟩ := readable.2 cue member
  have plain := follows
  simp only [startsSong, Bool.or_eq_false_iff, trimmed] at plain
  simp [sectionOf, found cue (List.mem_cons_of_mem _ member), follows,
    sectionName, trimmed, plain.1]

/-! ## Where the markers are listed -/

/-- The positions of the markers, in any order, are all different. -/
theorem Ascending.noTies_of_perm
    (ascending : Ascending (planMarkers setList))
    (same : listed.Perm (planMarkers setList)) :
    NoTies listed :=
  same.symm.pairwise ascending.noTies
    fun different ties => different ⟨ties.1.symm, ties.2.symm⟩

theorem Ascending.sortedBy_of_perm
    (ascending : Ascending (planMarkers setList))
    (same : listed.Perm (planMarkers setList)) :
    sortedBy sortKey listed = planMarkers setList := by
  rw [sortedBy_eq_of_perm (ascending.imp ?_) same, ascending.sortedBy_eq]
  intro early late before ties
  exact before.ne (sortKey_eq_iff.mp ties).1

theorem get?_originalIndex_idxOf
    (noTies : NoTies listed)
    {cue : CuePoint}
    (member : cue ∈ listed) :
    (originalIndex listed).get? (markerKey cue) = some (listed.idxOf cue) :=
  get?_originalIndex noTies (List.getElem?_idxOf member)

/-- A readable set is read back. -/
theorem parseMarkers_of_readable
    (ascending : Ascending (planMarkers setList))
    (same : listed.Perm (planMarkers setList))
    (readable : ∀ song ∈ setList, song.Readable) :
    parseMarkers listed = planned listed setList := by
  rw [parseMarkers, ascending.sortedBy_of_perm same,
    foldl_addCue_planMarkers readable, planned]
  refine congrArg annotateSectionLengths (List.map_congr_left ?_)
  intro entry member
  have inside : entry.1 ∈ setList :=
    List.fst_mem_of_mem_zipIdx member
  rw [map_sectionOf_markers (readable _ inside) (fun cue inSong => ?_) entry.2]
  · rfl
  · refine get?_originalIndex_idxOf (ascending.noTies_of_perm same) ?_
    exact same.mem_iff.mpr (List.mem_flatMap.mpr ⟨entry.1, inside, inSong⟩)

/-! ## The other way round -/

/-- A cue opens a song if it starts one. -/
theorem opening?_eq_none_iff {count : Nat} {cue : CuePoint} :
    opening? index count cue = none ↔ startsSong cue = false := by
  unfold opening? startsSong
  dsimp only
  split
  · rename_i title header
    simp [header]
  · rename_i none'
    split <;> simp_all

variable (index) in
theorem map_position_openings (cues : List CuePoint) :
    (openings index cues).map Opening.position =
      (cues.filter startsSong).map CuePoint.position := by
  induction cues using List.reverseRecOn with
  | nil => rfl
  | append_singleton early last inductionHypothesis =>
      rw [openings_append_singleton, List.map_append, inductionHypothesis,
        List.filter_append, List.map_append]
      refine congrArg _ ?_
      cases opens : opening? index (openings index early).length last with
      | none =>
          have follows := opening?_eq_none_iff.mp opens
          simp [follows]
      | some entry =>
          obtain ⟨starts, _, position⟩ := sectionOf_of_opening? opens
          simp [starts, position]

/-- The songs open as the cues do that start them. -/
theorem openings_eq_filterMap (cues : List CuePoint) :
    openings index cues =
      (cues.filter startsSong).zipIdx.filterMap fun entry =>
        opening? index entry.2 entry.1 := by
  induction cues using List.reverseRecOn with
  | nil => rfl
  | append_singleton early last inductionHypothesis =>
      have length := congrArg List.length
        (map_position_openings index early)
      rw [List.length_map, List.length_map] at length
      rw [openings_append_singleton, List.filter_append, List.zipIdx_append,
        List.filterMap_append, ← inductionHypothesis, Nat.zero_add, ← length]
      refine congrArg _ ?_
      cases opens : opening? index (openings index early).length last with
      | none =>
          have follows := opening?_eq_none_iff.mp opens
          simp [follows]
      | some entry =>
          have starts := (sectionOf_of_opening? opens).1
          simp [starts, opens]

/-! ## Chunks -/

/-- Two ways of making chunks of the same lengths agree where the wholes do. -/
theorem eq_of_flatMap_eq
    {α β : Type} {items : List α} {first second : α → List β}
    (lengths : ∀ item ∈ items, (first item).length = (second item).length)
    (same : items.flatMap first = items.flatMap second) :
    ∀ item ∈ items, first item = second item := by
  induction items with
  | nil => simp
  | cons item rest inductionHypothesis =>
      rw [List.forall_mem_cons] at lengths ⊢
      rw [List.flatMap_cons, List.flatMap_cons] at same
      obtain ⟨here, later⟩ := List.append_inj same lengths.1
      exact ⟨here, inductionHypothesis lengths.2 later⟩

/-- Two sublists of a list are the same if their elements can be told by a key
and have the same keys. -/
theorem eq_of_map_eq_of_subset
    {α β : Type} {whole first second : List α} {key : α → β}
    (distinct : ∀ item ∈ whole, ∀ other ∈ whole,
      key item = key other → item = other)
    (inFirst : first ⊆ whole)
    (inSecond : second ⊆ whole)
    (same : first.map key = second.map key) :
    first = second := by
  induction first generalizing second with
  | nil => simpa using same.symm
  | cons item rest inductionHypothesis =>
      cases second with
      | nil => simp at same
      | cons other others =>
          obtain ⟨here, later⟩ := List.cons.inj same
          rw [List.cons_subset] at inFirst inSecond
          rw [distinct item inFirst.1 other inSecond.1 here,
            inductionHypothesis inFirst.2 inSecond.2 later]

/-! ## What a set that is read back is like -/

theorem header_mem (member : song ∈ setList) :
    song.header ∈ planMarkers setList :=
  List.mem_flatMap.mpr ⟨song, member, List.mem_cons_self⟩

theorem sections_mem
    (member : song ∈ setList)
    {cue : CuePoint}
    (inSong : cue ∈ song.sections) :
    cue ∈ planMarkers setList :=
  List.mem_flatMap.mpr ⟨song, member, List.mem_cons_of_mem _ inSong⟩

theorem Ascending.eq_of_position_eq
    (ascending : Ascending cues) :
    ∀ cue ∈ cues, ∀ other ∈ cues,
      cue.position = other.position → cue = other := by
  have nodup : (cues.map CuePoint.position).Nodup :=
    List.pairwise_map.mpr (ascending.imp ne_of_lt)
  exact List.inj_on_of_nodup_map nodup

/-- The openings of the songs that are to be read. -/
theorem map_openingOf_planned (listed : List CuePoint) :
    (planned listed setList).map openingOf =
      setList.zipIdx.map fun entry =>
        ⟨entry.1.opening.songName (entry.2 + 1), entry.1.position,
          some (entry.1.opening.sectionName,
            listed.idxOf entry.1.header)⟩ := by
  rw [planned, map_openingOf_annotate, List.map_map]
  rfl

/-- The cues that start a song are the headers. -/
theorem filter_startsSong_eq
    (ascending : Ascending (planMarkers setList))
    (same : listed.Perm (planMarkers setList))
    (read : parseMarkers listed = planned listed setList) :
    (planMarkers setList).filter startsSong =
      setList.map PlannedSong.header := by
  have opens := map_openingOf_parseMarkers listed
  rw [read, map_openingOf_planned, ascending.sortedBy_of_perm same] at opens
  refine eq_of_map_eq_of_subset ascending.eq_of_position_eq
    (List.filter_subset_self _) (fun cue member => ?_) ?_
  · obtain ⟨song, inside, rfl⟩ := List.mem_map.mp member
    exact header_mem inside
  · have positions := congrArg (List.map Opening.position) opens
    have planned : setList.zipIdx.map (fun entry => entry.1.position) =
        setList.map PlannedSong.position := by
      conv_rhs => rw [← List.zipIdx_map_fst 0 setList, List.map_map]
      rfl
    rw [map_position_openings, List.map_map] at positions
    rw [List.map_map]
    exact positions.symm.trans planned

/-- The other markers start no song. -/
theorem follows_of_filter_eq
    (ascending : Ascending (planMarkers setList))
    (headers : (planMarkers setList).filter startsSong =
      setList.map PlannedSong.header)
    (member : song ∈ setList)
    {cue : CuePoint}
    (inSong : cue ∈ song.sections) :
    startsSong cue = false := by
  have nodup : (planMarkers setList).Nodup :=
    ascending.imp fun before same => before.ne (congrArg _ same)
  obtain ⟨each, apart⟩ := List.nodup_flatMap.mp nodup
  by_contra starts
  have started : cue ∈ setList.map PlannedSong.header := by
    rw [← headers, List.mem_filter]
    exact ⟨sections_mem member inSong, by simpa using starts⟩
  obtain ⟨other, inside, rfl⟩ := List.mem_map.mp started
  by_cases same : song = other
  · subst same
    exact (List.nodup_cons.mp (each song member)).1 inSong
  · have symmetric : Std.Symm
        (Function.onFun List.Disjoint PlannedSong.markers) :=
      ⟨fun _ _ disjoint => List.disjoint_symm disjoint⟩
    exact apart.forall member inside same
      (List.mem_cons_of_mem _ inSong) List.mem_cons_self

/-- The names of the sections that are to be read. -/
theorem map_name_flat_planned (listed : List CuePoint) :
    (flat (planned listed setList)).map Section.name =
      setList.flatMap fun song =>
        song.opening.sectionName :: song.sections.map CuePoint.name := by
  have kept : ∀ (sections : List Section) (next : Option ℚ),
      (annotateSections sections next).map Section.name =
        sections.map Section.name := by
    intro sections next
    induction sections with
    | nil => rfl
    | cons this rest inductionHypothesis =>
        simp only [annotateSections, List.map_cons, inductionHypothesis]
  rw [planned, flat_annotateSectionLengths, kept, flat, List.flatMap_map,
    List.map_flatMap]
  conv_rhs => rw [← List.zipIdx_map_fst 0 setList, List.flatMap_map]
  simp [PlannedSong.shown, Function.comp_def]

theorem names_of_shows
    {sections : List Section}
    (shows' : List.Forall₂ Section.Shows sections cues) :
    sections.map Section.name = cues.map sectionName := by
  induction shows' with
  | nil => rfl
  | cons first _ inductionHypothesis =>
      rw [List.map_cons, List.map_cons, first.name, inductionHypothesis]

/-- Every marker of a set that is read back has the name that it was written
with. -/
theorem sectionName_of_read
    (ascending : Ascending (planMarkers setList))
    (same : listed.Perm (planMarkers setList))
    (read : parseMarkers listed = planned listed setList)
    (starts : ∀ song ∈ setList, startsSong song.header = true) :
    ∀ song ∈ setList,
      song.markers.map sectionName =
        song.opening.sectionName :: song.sections.map CuePoint.name := by
  have shows' := (builtFrom_parseMarkers listed).shows_flat
  rw [ascending.sortedBy_of_perm same] at shows'
  have whole : fromFirstStart (planMarkers setList) = planMarkers setList := by
    cases setList with
    | nil => rfl
    | cons song rest =>
        have first := starts song List.mem_cons_self
        unfold fromFirstStart planMarkers
        rw [List.flatMap_cons, PlannedSong.markers, List.cons_append,
          List.dropWhile_cons_of_neg (by simp [first])]
  have names := names_of_shows shows'
  rw [whole] at names
  rw [read, map_name_flat_planned, planMarkers, List.map_flatMap] at names
  refine eq_of_flatMap_eq (fun song _ => ?_) names.symm
  simp [PlannedSong.markers]

theorem readable_of_read
    (ascending : Ascending (planMarkers setList))
    (same : listed.Perm (planMarkers setList))
    (read : parseMarkers listed = planned listed setList) :
    ∀ song ∈ setList, song.Readable := by
  have headers := filter_startsSong_eq ascending same read
  have starts : ∀ song ∈ setList, startsSong song.header = true := by
    intro song member
    have kept : song.header ∈ (planMarkers setList).filter startsSong :=
      headers ▸ List.mem_map_of_mem member
    exact (List.mem_filter.mp kept).2
  have opens := map_openingOf_parseMarkers listed
  rw [read, map_openingOf_planned, ascending.sortedBy_of_perm same,
    openings_eq_filterMap, headers, List.zipIdx_map, List.filterMap_map] at opens
  have opened := List.filterMap_eq_map_iff_forall_eq_some.mp opens.symm
  intro song member
  obtain ⟨place, listed'⟩ := List.mem_iff_getElem?.mp member
  have opensHere := opened (song, place)
    (List.mem_zipIdx_iff_getElem?.mpr listed')
  simp only [Function.comp_apply, Prod.map_fst, Prod.map_snd, id_eq]
    at opensHere
  obtain ⟨_, names⟩ := List.cons.inj
    (sectionName_of_read ascending same read starts _ member)
  refine ⟨readable_of_opening? opensHere, fun cue inSong => ?_⟩
  have follows := follows_of_filter_eq ascending headers member inSong
  have name := List.map_inj_left.mp names cue inSong
  simp only [startsSong, Bool.or_eq_false_iff] at follows
  rw [sectionName, if_neg (by simp [follows.1])] at name
  exact ⟨name, by simp [startsSong, follows]⟩

/-- Whatever the order in which the markers of a planned set are listed, the
set is read back, song by song and with the indices of its markers, exactly
when each of its names can be read. -/
theorem parseMarkers_eq_planned_iff
    (ascending : Ascending (planMarkers setList))
    (same : listed.Perm (planMarkers setList)) :
    parseMarkers listed = planned listed setList ↔
      ∀ song ∈ setList, song.Readable :=
  ⟨readable_of_read ascending same, parseMarkers_of_readable ascending same⟩

/-- A song with a title and one without, listed in another order. -/
theorem parseMarkers_eq_planned_iff_twoSongs :
    let setList : List PlannedSong :=
      [⟨.titled "Amazing Grace", 0, [⟨"Verse", 8⟩, ⟨"Loop", 16⟩]⟩,
        ⟨.untitled "Inicio", 32, []⟩]
    let listed : List CuePoint :=
      [⟨"Inicio", 32⟩, ⟨"Loop", 16⟩, ⟨"== Amazing Grace ==", 0⟩, ⟨"Verse", 8⟩]
    parseMarkers listed = planned listed setList := by
  intro setList listed
  have ascending : Ascending (planMarkers setList) := by decide +kernel
  have same : listed.Perm (planMarkers setList) := by decide +kernel
  exact (parseMarkers_eq_planned_iff ascending same).mpr (by decide +kernel)

end Parser
end AbletonTracks
