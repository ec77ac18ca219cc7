import AbletonTracks.Parser.Tree
import Mathlib.Data.List.FinRange

/-!
# Where the sections jump to

The tree is built from the sorted cues, and the index of each section is looked
up by its name and position in a table of Ableton's own list.  Two cues with
one name and position share an entry of that table.  Where no two cues tie in
the sort, the order of Ableton's list shows in the indices only.
-/

namespace AbletonTracks

open Library

namespace Parser

variable {index : Dict (String × ℚ) Nat} {cuePoints : List CuePoint}

/-- The key of a cue in the table of indices. -/
def markerKey (cue : CuePoint) : String × ℚ :=
  (Text.strip cue.name, cue.position)

/-- The section that the loop makes of a cue. -/
def sectionOf (index : Dict (String × ℚ) Nat) (cue : CuePoint) : Section where
  name := sectionName cue
  position := cue.position
  cueIndex := (index.get? (markerKey cue)).getD 0
  isLoop := !startsSong cue && isLoopSection (Text.strip cue.name)
  length := none

/-! ## The sections of the set -/

theorem BuiltFrom.eq_nil_iff
    {songs : List Song} {done : List CuePoint}
    (built : BuiltFrom songs done) :
    songs = [] ↔ fromFirstStart done = [] := by
  obtain ⟨groups, whole, all⟩ := built
  rw [← whole]
  cases all with
  | nil => simp
  | cons made rest =>
      obtain ⟨first, others, rfl, _⟩ := made.opens
      simp

theorem flat_append (songs others : List Song) :
    flat (songs ++ others) = flat songs ++ flat others :=
  List.flatMap_append

theorem flat_addSection (songs : List Song) (added : Section) :
    flat (addSection songs added) =
      if songs = [] then [] else flat songs ++ [added] := by
  cases songs using List.reverseRecOn with
  | nil => rfl
  | append_singleton early last _ => simp [addSection, flat]

/-- One cue more is one section more, unless no song has started. -/
theorem flat_addCue
    {songs : List Song} {done : List CuePoint}
    (built : BuiltFrom songs done)
    (sections : flat songs = (fromFirstStart done).map (sectionOf index))
    (cue : CuePoint) :
    flat (addCue index songs cue) =
      (fromFirstStart (done ++ [cue])).map (sectionOf index) := by
  simp only [addCue]
  cases header : songHeader? (Text.strip cue.name) with
  | some title =>
      have starts : startsSong cue = true := by simp [startsSong, header]
      rw [fromFirstStart_append_of_starts starts, List.map_append, ← sections,
        flat_append]
      simp [flat, sectionOf, sectionName, header, starts, markerKey]
  | none =>
      simp only
      split
      · rename_i keyword
        have starts : startsSong cue = true := by simp [startsSong, keyword]
        rw [fromFirstStart_append_of_starts starts, List.map_append,
          ← sections, flat_append]
        simp [flat, sectionOf, sectionName, header, starts, markerKey]
      · rename_i other
        have follows : startsSong cue = false := by
          simpa [startsSong, header] using other
        rw [fromFirstStart_append_of_not_starts follows, flat_addSection]
        by_cases nothing : songs = []
        · rw [if_pos nothing, if_pos (built.eq_nil_iff.mp nothing)]
          rfl
        · rw [if_neg nothing, if_neg (mt built.eq_nil_iff.mpr nothing),
            List.map_append, ← sections]
          simp [sectionOf, sectionName, header, follows, markerKey]

theorem flat_foldl_addCue (cues : List CuePoint) :
    flat (cues.foldl (addCue index) []) =
      (fromFirstStart cues).map (sectionOf index) := by
  induction cues using List.reverseRecOn with
  | nil => rfl
  | append_singleton early last inductionHypothesis =>
      rw [List.foldl_append, List.foldl_cons, List.foldl_nil]
      exact flat_addCue (builtFrom_foldl early) inductionHypothesis last

theorem map_cueIndex_annotateSections
    (sections : List Section)
    (next : Option ℚ) :
    (annotateSections sections next).map Section.cueIndex =
      sections.map Section.cueIndex := by
  induction sections with
  | nil => rfl
  | cons this rest inductionHypothesis =>
      simp only [annotateSections, List.map_cons, inductionHypothesis]

/-- The indices of the set, in order. -/
theorem map_cueIndex_flat (cuePoints : List CuePoint) :
    (flat (parseMarkers cuePoints)).map Section.cueIndex =
      (fromFirstStart (sortedBy sortKey cuePoints)).map fun cue =>
        ((originalIndex cuePoints).get? (markerKey cue)).getD 0 := by
  rw [parseMarkers, flat_annotateSectionLengths,
    map_cueIndex_annotateSections, flat_foldl_addCue, List.map_map]
  rfl

/-! ## Distinct indices -/

/-- No two sections of the set have the same index, and every index is one of
Ableton's list. -/
def DistinctTargets (cuePoints : List CuePoint) : Prop :=
  ((flat (parseMarkers cuePoints)).map Section.cueIndex).Nodup ∧
    ∀ item ∈ flat (parseMarkers cuePoints), item.cueIndex < cuePoints.length

instance (cuePoints : List CuePoint) : Decidable (DistinctTargets cuePoints) :=
  inferInstanceAs (Decidable (_ ∧ ∀ item ∈ flat (parseMarkers cuePoints), _))

/-- The table leads from a sorted cue to one with the same key. -/
theorem exists_cueIndex
    {cue : CuePoint}
    (member : cue ∈ sortedBy sortKey cuePoints) :
    ∃ cueIndex, (originalIndex cuePoints).get? (markerKey cue) =
        some cueIndex ∧
      ∃ other, cuePoints[cueIndex]? = some other ∧
        markerKey other = markerKey cue := by
  obtain ⟨cueIndex, found, other, listed, position, name⟩ :=
    exists_originalIndex member
  exact ⟨cueIndex, found, other, listed, Prod.ext name position⟩

/-- Every section's index is one of Ableton's list. -/
theorem cueIndex_lt
    {item : Section}
    (member : item ∈ flat (parseMarkers cuePoints)) :
    item.cueIndex < cuePoints.length := by
  have indexed := List.mem_map_of_mem (f := Section.cueIndex) member
  rw [map_cueIndex_flat, List.mem_map] at indexed
  obtain ⟨cue, kept, same⟩ := indexed
  obtain ⟨cueIndex, found, other, listed, _⟩ :=
    exists_cueIndex ((List.dropWhile_sublist _).mem kept)
  rw [← same, found]
  exact (List.getElem?_eq_some_iff.mp listed).1

/-- The sections have distinct indices exactly when no two cues from the first
song start on have the same name and position. -/
theorem distinctTargets_iff (cuePoints : List CuePoint) :
    DistinctTargets cuePoints ↔
      ((fromFirstStart (sortedBy sortKey cuePoints)).map markerKey).Nodup := by
  have sorted : ∀ cue ∈ fromFirstStart (sortedBy sortKey cuePoints),
      cue ∈ sortedBy sortKey cuePoints :=
    fun cue kept => (List.dropWhile_sublist _).mem kept
  rw [DistinctTargets, and_iff_left fun item => cueIndex_lt,
    map_cueIndex_flat, List.Nodup, List.Nodup, List.pairwise_map,
    List.pairwise_map]
  refine List.Pairwise.iff_of_mem fun {early late} first second => not_congr ?_
  constructor
  · -- Two cues that the table leads to one index have its key.
    intro same
    obtain ⟨_, foundEarly, other, listed, earlyKey⟩ :=
      exists_cueIndex (sorted early first)
    obtain ⟨_, foundLate, _, listed', lateKey⟩ :=
      exists_cueIndex (sorted late second)
    rw [foundEarly, foundLate, Option.getD_some, Option.getD_some] at same
    subst same
    obtain rfl := Option.some.inj (listed.symm.trans listed')
    exact earlyKey.symm.trans lateKey
  · intro same
    rw [same]

/-- Two cues with one name at one position share the last one's index. -/
theorem not_distinctTargets_of_sameMarker :
    ¬DistinctTargets [⟨"== Amazing Grace ==", 0⟩, ⟨"Verse", 8⟩,
      ⟨"Verse", 8⟩] := by
  decide +kernel

/-! ## Another order of the list -/

/-- No two cues tie in the sort: they differ in their position, or only one of
them is a header. -/
def NoTies (cuePoints : List CuePoint) : Prop :=
  cuePoints.Pairwise fun early late =>
    ¬(early.position = late.position ∧
      (songHeader? (Text.strip early.name)).isSome =
        (songHeader? (Text.strip late.name)).isSome)

instance (cuePoints : List CuePoint) : Decidable (NoTies cuePoints) :=
  inferInstanceAs (Decidable (cuePoints.Pairwise _))

/-- The cue points in another order: each place of the new list shows a place
of the old one. -/
def reordered
    (cuePoints : List CuePoint)
    (order : Equiv.Perm (Fin cuePoints.length)) : List CuePoint :=
  List.ofFn fun place => cuePoints.get (order place)

/-- The place of the old list that a place of the new one shows. -/
def shownPlace
    (cuePoints : List CuePoint)
    (order : Equiv.Perm (Fin cuePoints.length))
    (place : Nat) : Nat :=
  if inside : place < cuePoints.length then order ⟨place, inside⟩ else place

end Parser

/-- The section with its index taken through a renumbering. -/
def Section.renumber (image : Nat → Nat) (item : Section) : Section :=
  { item with cueIndex := image item.cueIndex }

/-- The song with the indices of its sections taken through a renumbering. -/
def Song.renumber (image : Nat → Nat) (song : Song) : Song :=
  { song with sections := song.sections.map (Section.renumber image) }

namespace Parser

variable {index : Dict (String × ℚ) Nat} {cuePoints : List CuePoint}
  {order : Equiv.Perm (Fin cuePoints.length)} {image : Nat → Nat}

theorem sortKey_eq_iff {early late : CuePoint} :
    sortKey early = sortKey late ↔
      early.position = late.position ∧
        (songHeader? (Text.strip early.name)).isSome =
          (songHeader? (Text.strip late.name)).isSome := by
  simp only [sortKey, EmbeddingLike.apply_eq_iff_eq, Prod.mk.injEq,
    and_congr_right_iff]
  intro _
  split <;> split <;> simp_all

theorem sortKey_eq_of_markerKey_eq
    {early late : CuePoint}
    (same : markerKey early = markerKey late) :
    sortKey early = sortKey late := by
  obtain ⟨name, position⟩ := Prod.mk.inj same
  rw [sortKey_eq_iff, name]
  exact ⟨position, rfl⟩

theorem reordered_perm (order : Equiv.Perm (Fin cuePoints.length)) :
    (reordered cuePoints order).Perm cuePoints := by
  have shuffled := order.ofFn_comp_perm cuePoints.get
  rwa [List.ofFn_get] at shuffled

theorem length_reordered (order : Equiv.Perm (Fin cuePoints.length)) :
    (reordered cuePoints order).length = cuePoints.length :=
  List.length_ofFn

/-- Without ties the table leads to each cue itself. -/
theorem get?_originalIndex
    (noTies : NoTies cuePoints)
    {place : Nat} {cue : CuePoint}
    (listed : cuePoints[place]? = some cue) :
    (originalIndex cuePoints).get? (markerKey cue) = some place := by
  obtain ⟨found, lookup, other, listed', same⟩ :=
    exists_cueIndex (mem_sortedBy.mpr (List.mem_of_getElem? listed))
  obtain ⟨inside, rfl⟩ := List.getElem?_eq_some_iff.mp listed
  obtain ⟨inside', rfl⟩ := List.getElem?_eq_some_iff.mp listed'
  have ties := sortKey_eq_iff.mp (sortKey_eq_of_markerKey_eq same)
  rw [lookup]
  rcases lt_trichotomy found place with before | rfl | behind
  · exact absurd ties (List.pairwise_iff_getElem.mp noTies _ _ _ _ before)
  · rfl
  · exact absurd ⟨ties.1.symm, ties.2.symm⟩
      (List.pairwise_iff_getElem.mp noTies _ _ _ _ behind)

theorem noTies_reordered
    (noTies : NoTies cuePoints)
    (order : Equiv.Perm (Fin cuePoints.length)) :
    NoTies (reordered cuePoints order) :=
  (reordered_perm order).symm.pairwise noTies
    fun different same => different ⟨same.1.symm, same.2.symm⟩

/-- The two tables lead to the same cue. -/
theorem cueIndex_reordered
    (noTies : NoTies cuePoints)
    (order : Equiv.Perm (Fin cuePoints.length))
    {cue : CuePoint}
    (member : cue ∈ cuePoints) :
    ((originalIndex cuePoints).get? (markerKey cue)).getD 0 =
      shownPlace cuePoints order (((originalIndex (reordered cuePoints order)).get?
        (markerKey cue)).getD 0) := by
  obtain ⟨place, inside, rfl⟩ :=
    List.getElem_of_mem ((reordered_perm order).mem_iff.mpr member)
  have inOld : place < cuePoints.length := (length_reordered order) ▸ inside
  have listed : cuePoints[(order ⟨place, inOld⟩ : Nat)]? =
      some (reordered cuePoints order)[place] := by
    simp [reordered]
  rw [get?_originalIndex noTies listed,
    get?_originalIndex (noTies_reordered noTies order)
      (List.getElem?_eq_getElem inside)]
  simp [shownPlace, inOld]

/-! ## Renumbering a tree -/

/-- Renumbering the songs is renumbering the table. -/
theorem map_renumber_addSection (songs : List Song) (added : Section) :
    (addSection songs added).map (Song.renumber image) =
      addSection (songs.map (Song.renumber image)) (added.renumber image) := by
  cases songs using List.reverseRecOn with
  | nil => rfl
  | append_singleton early last _ => simp [addSection, Song.renumber]

theorem map_renumber_addCue
    {other : Dict (String × ℚ) Nat} {cue : CuePoint}
    (same : (index.get? (markerKey cue)).getD 0 =
      image ((other.get? (markerKey cue)).getD 0))
    (songs : List Song) :
    addCue index (songs.map (Song.renumber image)) cue =
      (addCue other songs cue).map (Song.renumber image) := by
  rw [markerKey] at same
  simp only [addCue, same]
  split
  · simp [Song.renumber, Section.renumber]
  · split
    · simp [Song.renumber, Section.renumber]
    · rw [map_renumber_addSection, Section.renumber]

theorem foldl_addCue_renumber
    {other : Dict (String × ℚ) Nat} {cues : List CuePoint}
    (same : ∀ cue ∈ cues, (index.get? (markerKey cue)).getD 0 =
      image ((other.get? (markerKey cue)).getD 0)) :
    cues.foldl (addCue index) [] =
      (cues.foldl (addCue other) []).map (Song.renumber image) := by
  induction cues using List.reverseRecOn with
  | nil => rfl
  | append_singleton early last inductionHypothesis =>
      simp only [List.foldl_append, List.foldl_cons, List.foldl_nil]
      rw [inductionHypothesis fun cue member =>
          same cue (List.mem_append_left _ member),
        map_renumber_addCue (same last (by simp))]

theorem annotateSections_renumber
    (sections : List Section)
    (next : Option ℚ) :
    annotateSections (sections.map (Section.renumber image)) next =
      (annotateSections sections next).map (Section.renumber image) := by
  induction sections with
  | nil => rfl
  | cons this rest inductionHypothesis =>
      simp only [List.map_cons, annotateSections, inductionHypothesis,
        List.head?_map, Option.map_map]
      rfl

theorem annotateSectionLengths_renumber (songs : List Song) :
    annotateSectionLengths (songs.map (Song.renumber image)) =
      (annotateSectionLengths songs).map (Song.renumber image) := by
  induction songs with
  | nil => rfl
  | cons song rest inductionHypothesis =>
      have sections : (rest.map (Song.renumber image)).flatMap Song.sections =
          (rest.flatMap Song.sections).map (Section.renumber image) := by
        rw [List.flatMap_map, List.map_flatMap]
        rfl
      have starts : Section.position ∘ Section.renumber image =
          Section.position := rfl
      simp only [List.map_cons, annotateSectionLengths, inductionHypothesis,
        sections, List.head?_map, Option.map_map, starts]
      simp only [Song.renumber, annotateSections_renumber]

/-- Where no two cues tie, the order of Ableton's list shows in the indices of
the sections only: they are renumbered as the list was reordered. -/
theorem parseMarkers_reordered
    (noTies : NoTies cuePoints)
    (order : Equiv.Perm (Fin cuePoints.length)) :
    parseMarkers cuePoints =
        (parseMarkers (reordered cuePoints order)).map
          (Song.renumber (shownPlace cuePoints order)) ∧
      ∀ item ∈ flat (parseMarkers (reordered cuePoints order)),
        item.cueIndex < cuePoints.length := by
  have apart : cuePoints.Pairwise fun early late =>
      sortKey early ≠ sortKey late :=
    noTies.imp fun different same => different (sortKey_eq_iff.mp same)
  have sorted := sortedBy_eq_of_perm apart (reordered_perm order)
  constructor
  · simp only [parseMarkers, sorted]
    rw [← annotateSectionLengths_renumber]
    congr 1
    apply foldl_addCue_renumber
    intro cue member
    exact cueIndex_reordered noTies order (mem_sortedBy.mp member)
  · intro item member
    rw [← length_reordered order]
    exact cueIndex_lt member

/-- Two cues that Ableton lists the other way round. -/
theorem parseMarkers_reordered_swap :
    parseMarkers [⟨"Verse", 8⟩, ⟨"== Amazing Grace ==", 0⟩] =
      (parseMarkers (reordered [⟨"Verse", 8⟩, ⟨"== Amazing Grace ==", 0⟩]
        (Equiv.swap (0 : Fin 2) 1))).map
          (Song.renumber (shownPlace
            [⟨"Verse", 8⟩, ⟨"== Amazing Grace ==", 0⟩]
            (Equiv.swap (0 : Fin 2) 1))) := by
  have noTies : NoTies [⟨"Verse", 8⟩, ⟨"== Amazing Grace ==", 0⟩] := by
    decide +kernel
  exact (parseMarkers_reordered noTies (Equiv.swap (0 : Fin 2) 1)).1

end Parser
end AbletonTracks
