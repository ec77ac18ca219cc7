import AbletonTracks.Parser

/-!
# The songs that `parse_markers` builds

Every section of a parsed song stands for a cue of Ableton's own list, and
every song has a first section, at its own position.
-/

namespace AbletonTracks

open Library

/-- The section stands for the cue at its index: one at its position with its
name. -/
def Section.Marks (cuePoints : List CuePoint) (item : Section) : Prop :=
  ∃ cue, cuePoints[item.cueIndex]? = some cue ∧
    cue.position = item.position ∧ Text.strip cue.name = item.name

/-- The section is the "Start" that a song header opens a song with. -/
def Section.Heads
    (cuePoints : List CuePoint)
    (title : String)
    (item : Section) : Prop :=
  item.name = "Start" ∧ ∃ cue, cuePoints[item.cueIndex]? = some cue ∧
    cue.position = item.position ∧
    Parser.songHeader? (Text.strip cue.name) = some title

/-- The song has a first section at its own position, and every section stands
for a cue. -/
def Song.Parsed (cuePoints : List CuePoint) (song : Song) : Prop :=
  ∃ opening others, song.sections = opening :: others ∧
    opening.position = song.position ∧
    (opening.Heads cuePoints song.name ∨ opening.Marks cuePoints) ∧
    ∀ item ∈ others, item.Marks cuePoints

namespace Parser

variable {cuePoints : List CuePoint}

/-! ## The index of a cue -/

/-- What the index finds is a cue with that name and position. -/
theorem originalIndex_eq_some
    {name : String} {position : ℚ} {cueIndex : Nat}
    (found : (originalIndex cuePoints).get? (name, position) =
      some cueIndex) :
    ∃ cue, cuePoints[cueIndex]? = some cue ∧ cue.position = position ∧
      Text.strip cue.name = name := by
  rcases Dict.get?_foldl_insert found with impossible | ⟨cue, member, same⟩
  · simp at impossible
  · obtain ⟨key, rfl⟩ := same
    obtain ⟨sameName, samePosition⟩ := Prod.mk.inj key
    exact ⟨cue.1, List.mem_zipIdx_iff_getElem?.mp member, samePosition,
      sameName⟩

/-- Every cue of the sorted list has an index, which leads to a cue like it. -/
theorem exists_originalIndex
    {cue : CuePoint}
    (member : cue ∈ sortedBy sortKey cuePoints) :
    ∃ cueIndex, (originalIndex cuePoints).get?
        (Text.strip cue.name, cue.position) = some cueIndex ∧
      ∃ other, cuePoints[cueIndex]? = some other ∧
        other.position = cue.position ∧
        Text.strip other.name = Text.strip cue.name := by
  obtain ⟨cueIndex, found⟩ :=
    Option.isSome_iff_exists.mp (originalIndex_isSome member)
  exact ⟨cueIndex, found, originalIndex_eq_some found⟩

/-! ## Building the songs -/

/-- A further section goes to the last song. -/
theorem parsed_of_mem_addSection
    {songs : List Song} {added : Section} {song : Song}
    (parsed : ∀ earlier ∈ songs, earlier.Parsed cuePoints)
    (marks : added.Marks cuePoints)
    (member : song ∈ addSection songs added) :
    song.Parsed cuePoints := by
  unfold addSection at member
  split at member
  · exact parsed song member
  · rename_i last lastSong
    rcases List.mem_append.mp member with earlier | opened
    · exact parsed song (List.dropLast_subset _ earlier)
    · obtain rfl := List.mem_singleton.mp opened
      obtain ⟨opening, others, sections, position, opens, follow⟩ :=
        parsed last (List.mem_of_getLast? lastSong)
      refine ⟨opening, others ++ [added], ?_, position, opens, ?_⟩
      · simp only [sections, List.cons_append]
      · intro item itemMember
        rcases List.mem_append.mp itemMember with before | last
        · exact follow item before
        · obtain rfl := List.mem_singleton.mp last
          exact marks

/-- One cue keeps the songs parsed. -/
theorem parsed_of_mem_addCue
    {songs : List Song} {cue : CuePoint} {song : Song}
    (parsed : ∀ earlier ∈ songs, earlier.Parsed cuePoints)
    (sorted : cue ∈ sortedBy sortKey cuePoints)
    (member : song ∈ addCue (originalIndex cuePoints) songs cue) :
    song.Parsed cuePoints := by
  obtain ⟨cueIndex, found, other, listed, position, name⟩ :=
    exists_originalIndex sorted
  simp only [addCue, found, Option.getD_some] at member
  split at member
  · rename_i title header
    rcases List.mem_append.mp member with earlier | opened
    · exact parsed song earlier
    · obtain rfl := List.mem_singleton.mp opened
      refine ⟨_, [], rfl, rfl, Or.inl ⟨rfl, other, listed, position, ?_⟩, ?_⟩
      · rw [name, header]
      · simp
  · split at member
    · rcases List.mem_append.mp member with earlier | opened
      · exact parsed song earlier
      · obtain rfl := List.mem_singleton.mp opened
        exact ⟨_, [], rfl, rfl, Or.inr ⟨other, listed, position, name⟩,
          by simp⟩
    · exact parsed_of_mem_addSection parsed ⟨other, listed, position, name⟩
        member

/-! ## Lengths -/

/-- Two sections that differ in their lengths only. -/
def SameMarker (before after : Section) : Prop :=
  after.name = before.name ∧ after.position = before.position ∧
    after.cueIndex = before.cueIndex

theorem sameMarker_of_mem_annotateSections
    {sections : List Section} {next : Option ℚ} {item : Section}
    (member : item ∈ annotateSections sections next) :
    ∃ before ∈ sections, SameMarker before item := by
  induction sections with
  | nil => cases member
  | cons this rest inductionHypothesis =>
      rcases List.mem_cons.mp member with rfl | later
      · exact ⟨this, List.mem_cons_self, rfl, rfl, rfl⟩
      · obtain ⟨before, beforeMember, same⟩ := inductionHypothesis later
        exact ⟨before, List.mem_cons_of_mem _ beforeMember, same⟩

theorem marks_of_sameMarker
    {before after : Section}
    (marks : before.Marks cuePoints)
    (same : SameMarker before after) :
    after.Marks cuePoints := by
  obtain ⟨cue, listed, position, name⟩ := marks
  obtain ⟨sameName, samePosition, sameIndex⟩ := same
  exact ⟨cue, sameIndex ▸ listed, position.trans samePosition.symm,
    name.trans sameName.symm⟩

theorem heads_of_sameMarker
    {title : String} {before after : Section}
    (heads : before.Heads cuePoints title)
    (same : SameMarker before after) :
    after.Heads cuePoints title := by
  obtain ⟨start, cue, listed, position, header⟩ := heads
  obtain ⟨sameName, samePosition, sameIndex⟩ := same
  exact ⟨sameName.trans start, cue, sameIndex ▸ listed,
    position.trans samePosition.symm, header⟩

/-- Annotating the lengths keeps a song parsed. -/
theorem parsed_annotate
    {song : Song}
    (parsed : song.Parsed cuePoints)
    (next : Option ℚ) :
    Song.Parsed cuePoints
      { song with sections := annotateSections song.sections next } := by
  obtain ⟨opening, others, sections, position, opens, follow⟩ := parsed
  simp only [sections, annotateSections]
  refine ⟨_, _, rfl, position, ?_, ?_⟩
  · exact opens.imp (heads_of_sameMarker · ⟨rfl, rfl, rfl⟩)
      (marks_of_sameMarker · ⟨rfl, rfl, rfl⟩)
  · intro item member
    obtain ⟨before, beforeMember, same⟩ :=
      sameMarker_of_mem_annotateSections member
    exact marks_of_sameMarker (follow before beforeMember) same

theorem parsed_of_mem_annotateSectionLengths
    {songs : List Song} {song : Song}
    (parsed : ∀ earlier ∈ songs, earlier.Parsed cuePoints)
    (member : song ∈ annotateSectionLengths songs) :
    song.Parsed cuePoints := by
  induction songs with
  | nil => cases member
  | cons first rest inductionHypothesis =>
      rcases List.mem_cons.mp member with rfl | later
      · exact parsed_annotate (parsed first List.mem_cons_self) _
      · refine inductionHypothesis ?_ later
        intro earlier earlierMember
        exact parsed earlier (List.mem_cons_of_mem _ earlierMember)

/-- Every song that `parse_markers` returns is parsed from the cues. -/
theorem parsed_of_mem_parseMarkers
    {song : Song}
    (member : song ∈ parseMarkers cuePoints) :
    song.Parsed cuePoints := by
  refine parsed_of_mem_annotateSectionLengths ?_ member
  refine List.foldlRecOn
    (motive := fun (songs : List Song) =>
      ∀ song ∈ songs, song.Parsed cuePoints)
    (sortedBy sortKey cuePoints) _ ?_ ?_
  · intro song impossible
    cases impossible
  · intro songs parsed cue sorted song songMember
    exact parsed_of_mem_addCue parsed sorted songMember

/-- A section of a parsed song stands for a cue, unless it is the opening one
that stands for the song's header. -/
theorem heads_or_marks_of_parsed
    {song : Song} {item : Section} {index : Nat}
    (parsed : song.Parsed cuePoints)
    (found : song.sections[index]? = some item) :
    (index = 0 ∧ item.Heads cuePoints song.name) ∨ item.Marks cuePoints := by
  obtain ⟨opening, others, sections, _, opens, follow⟩ := parsed
  rw [sections] at found
  cases index with
  | zero =>
      obtain rfl := Option.some.inj found
      exact opens.imp (fun heads => ⟨rfl, heads⟩) id
  | succ index => exact Or.inr (follow item (List.mem_of_getElem? found))

/-! ## The current indices -/

/-- The pair of indices is that of a section. -/
def PointsInto (songs : List Song) (indices : Int × Int) : Prop :=
  0 ≤ indices.1 ∧ 0 ≤ indices.2 ∧
    ∃ song, songs[indices.1.toNat]? = some song ∧
      indices.2 < song.sections.length

/-- In a song that has started, some section has. -/
theorem currentSection_bounds
    {song : Song} {position : ℚ}
    (parsed : song.Parsed cuePoints)
    (started : song.position ≤ position) :
    0 ≤ currentSection song.sections position ∧
      currentSection song.sections position < song.sections.length := by
  obtain ⟨opening, others, sections, atStart, _, _⟩ := parsed
  have opens : opening.position ≤ position := atStart ▸ started
  have bound := (List.takeWhile_sublist
    (fun item : Section => decide (item.position ≤ position))
    (l := song.sections)).length_le
  have nonempty : 0 < (song.sections.takeWhile
      fun item => item.position ≤ position).length := by
    simp [sections, opens]
  unfold currentSection
  omega

/-- The indices at a position are both -1, or those of a section. -/
theorem pointsInto_findCurrentIndices
    {songs : List Song}
    (parsed : ∀ song ∈ songs, song.Parsed cuePoints)
    (position : ℚ) :
    findCurrentIndices songs position = (-1, -1) ∨
      PointsInto songs (findCurrentIndices songs position) := by
  unfold findCurrentIndices
  refine List.foldlRecOn
    (motive := fun (indices : Int × Int) =>
      indices = (-1, -1) ∨ PointsInto songs indices)
    songs.zipIdx _ (Or.inl rfl) ?_
  intro indices earlier entry member
  split
  · rename_i started
    have found : songs[entry.2]? = some entry.1 :=
      List.mem_zipIdx_iff_getElem?.mp member
    obtain ⟨lower, upper⟩ :=
      currentSection_bounds (parsed _ (List.mem_of_getElem? found)) started
    exact Or.inr ⟨Int.natCast_nonneg _, lower, entry.1, found, upper⟩
  · exact earlier

end Parser
end AbletonTracks
