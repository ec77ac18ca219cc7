import AbletonTracks.Parser.Tree

/-!
# Which section is current

The outer loop of `find_current_indices` looks at every song, the inner one
stops at the first section that has not started.  Together they find the last
section of the set that has started, so a section is current from its own
marker to the next one of the set.
-/

namespace AbletonTracks

open Library

/-- Playback is between the marker of the section and the next one. -/
def Section.Spans (item : Section) (position : ℚ) : Prop :=
  item.position ≤ position ∧
    ∀ length ∈ item.length, position < item.position + length

instance (item : Section) (position : ℚ) : Decidable (item.Spans position) :=
  inferInstanceAs (Decidable (_ ∧ ∀ length ∈ item.length, _))

namespace Parser

variable {cuePoints : List CuePoint} {songs : List Song} {position : ℚ}

/-- The sections of the set in order, each with the indices of its song and of
itself. -/
def entries (songs : List Song) : List ((Int × Int) × Section) :=
  songs.zipIdx.flatMap fun song =>
    song.1.sections.zipIdx.map fun item =>
      (((song.2 : Int), (item.2 : Int)), item.1)

/-- Where an entry starts. -/
def entryStart (entry : (Int × Int) × Section) : ℚ := entry.2.position

/-! ## The entries -/

theorem mem_entries_iff {songIndex sectionIndex : Int} {item : Section} :
    ((songIndex, sectionIndex), item) ∈ entries songs ↔
      0 ≤ songIndex ∧ 0 ≤ sectionIndex ∧
        ∃ song, songs[songIndex.toNat]? = some song ∧
          song.sections[sectionIndex.toNat]? = some item := by
  simp only [entries, List.mem_flatMap, List.mem_map, Prod.mk.injEq,
    List.mem_zipIdx_iff_getElem?]
  constructor
  · rintro ⟨song, listed, found, inSong, ⟨rfl, rfl⟩, rfl⟩
    exact ⟨Int.natCast_nonneg _, Int.natCast_nonneg _, song.1, listed, inSong⟩
  · rintro ⟨songNonneg, sectionNonneg, song, listed, inSong⟩
    exact ⟨(song, songIndex.toNat), listed, (item, sectionIndex.toNat), inSong,
      ⟨Int.toNat_of_nonneg songNonneg, Int.toNat_of_nonneg sectionNonneg⟩, rfl⟩

/-- Indices of a section are those of an entry. -/
theorem pointsInto_iff {songIndex sectionIndex : Int} :
    PointsInto songs (songIndex, sectionIndex) ↔
      ∃ item, ((songIndex, sectionIndex), item) ∈ entries songs := by
  simp only [PointsInto, mem_entries_iff, exists_and_left, and_congr_right_iff]
  intro songNonneg sectionNonneg
  rw [exists_comm]
  refine exists_congr fun song => ?_
  simp only [exists_and_left, and_congr_right_iff]
  intro listed
  rw [← Option.isSome_iff_exists, isSome_getElem?]
  omega

instance (songs : List Song) (indices : Int × Int) :
    Decidable (PointsInto songs indices) :=
  decidable_of_iff (∃ entry ∈ entries songs, entry.1 = indices) (by
    rw [pointsInto_iff]
    constructor
    · rintro ⟨entry, member, rfl⟩
      exact ⟨entry.2, member⟩
    · rintro ⟨item, member⟩
      exact ⟨_, member, rfl⟩)

theorem map_snd_entries (songs : List Song) :
    (entries songs).map Prod.snd = flat songs := by
  simp only [entries, List.map_flatMap, List.map_map]
  have sections : ∀ song : Song × Nat,
      song.1.sections.zipIdx.map (Prod.snd ∘ fun item =>
        (((song.2 : Int), (item.2 : Int)), item.1)) = song.1.sections :=
    fun song => List.zipIdx_map_fst 0 song.1.sections
  simp only [sections, flat]
  rw [← List.flatMap_map Prod.fst, List.zipIdx_map_fst]

/-- No two entries have the same indices. -/
theorem indices_injective
    {first second : (Int × Int) × Section}
    (firstMember : first ∈ entries songs)
    (secondMember : second ∈ entries songs)
    (same : first.1 = second.1) :
    first = second := by
  obtain ⟨indices, item⟩ := first
  obtain ⟨_, other⟩ := second
  obtain rfl : indices = _ := same
  obtain ⟨_, _, song, listed, inSong⟩ := mem_entries_iff.mp firstMember
  obtain ⟨_, _, song', listed', inSong'⟩ := mem_entries_iff.mp secondMember
  obtain rfl := Option.some.inj (listed.symm.trans listed')
  obtain rfl := Option.some.inj (inSong.symm.trans inSong')
  rfl

theorem nodup_entries (songs : List Song) : (entries songs).Nodup := by
  have numbered : ∀ {α : Type} (items : List α),
      items.zipIdx.Pairwise fun first second => first.2 < second.2 := by
    intro α items
    rw [← List.pairwise_map, List.zipIdx_map_snd]
    exact List.pairwise_lt_range'
  rw [List.Nodup, entries, List.pairwise_flatMap]
  constructor
  · intro song _
    rw [List.pairwise_map]
    apply (numbered song.1.sections).imp
    intro first second before same
    have indices := congrArg (fun entry => entry.1.2) same
    simp only [Nat.cast_inj] at indices
    omega
  · apply (numbered songs).imp
    intro first second before entry member other otherMember same
    obtain ⟨_, _, rfl⟩ := List.mem_map.mp member
    obtain ⟨_, _, rfl⟩ := List.mem_map.mp otherMember
    have indices := congrArg (fun entry => entry.1.1) same
    simp only [Nat.cast_inj] at indices
    omega

theorem chronological_entries (cuePoints : List CuePoint) :
    Chronological entryStart (entries (parseMarkers cuePoints)) := by
  have ordered := chronological_flat cuePoints
  rw [← map_snd_entries, Chronological, List.pairwise_map] at ordered
  exact ordered

/-- The next marker of the set does not lie before a section. -/
theorem length_nonneg
    {entry : (Int × Int) × Section} {length : ℚ}
    (member : entry ∈ entries (parseMarkers cuePoints))
    (measured : length ∈ entry.2.length) :
    0 ≤ length := by
  obtain ⟨early, late, split⟩ := List.append_of_mem member
  have leads := lengthsLeadOn_parseMarkers cuePoints (early.map Prod.snd)
    entry.2 (late.map Prod.snd) (by rw [← map_snd_entries, split]; simp)
  exact leads.2.2 length measured

/-! ## The two loops -/

/-- The inner loop finds the last section of the song that has started. -/
theorem current?_song
    {opening : Section} {others : List Section}
    (number : Nat)
    (ordered : Chronological Section.position (opening :: others))
    (position : ℚ) :
    (current? entryStart ((opening :: others).zipIdx.map fun item =>
        (((number : Int), (item.2 : Int)), item.1)) position).map Prod.fst =
      if opening.position ≤ position then
        some ((number : Int), currentSection (opening :: others) position)
      else none := by
  have numbered := current?_zipIdx ordered 0 position
  rw [current?_map, Option.map_map]
  have indices : (Prod.fst ∘ fun item : Section × Nat =>
      (((number : Int), (item.2 : Int)), item.1)) =
      (fun index : Nat => ((number : Int), (index : Int))) ∘ Prod.snd := rfl
  have starts : entryStart ∘ (fun item : Section × Nat =>
      (((number : Int), (item.2 : Int)), item.1)) =
      fun item => item.1.position := rfl
  rw [indices, starts, ← Option.map_map, numbered]
  by_cases started : opening.position ≤ position
  · simp [currentSection, started]
  · simp [started]

/-- Both loops find the last section of the set that has started. -/
theorem findCurrentIndices_eq
    (parsed : ∀ song ∈ songs, ∃ opening others,
      song.sections = opening :: others ∧ opening.position = song.position ∧
        Chronological Section.position song.sections)
    (position : ℚ) :
    findCurrentIndices songs position =
      ((current? entryStart (entries songs) position).map Prod.fst).getD
        (-1, -1) := by
  unfold findCurrentIndices entries
  induction songs using List.reverseRecOn with
  | nil => rfl
  | append_singleton early song inductionHypothesis =>
      obtain ⟨opening, others, sections, opens, ordered⟩ :=
        parsed song (List.mem_append_right _ List.mem_cons_self)
      have before := inductionHypothesis fun earlier member =>
        parsed earlier (List.mem_append_left _ member)
      rw [sections] at ordered
      have inner := current?_song early.length ordered position
      simp only [List.zipIdx_append, List.foldl_append, List.flatMap_append,
        List.zipIdx_singleton, List.foldl_cons, List.foldl_nil,
        List.flatMap_cons, List.flatMap_nil, List.append_nil, Nat.zero_add,
        current?_append, Option.map_or, sections, inner, before, opens]
      split <;> simp

/-- Every song of a parsed set opens at its own position and goes forward. -/
theorem opens_and_goesForward
    (cuePoints : List CuePoint) :
    ∀ song ∈ parseMarkers cuePoints, ∃ opening others,
      song.sections = opening :: others ∧ opening.position = song.position ∧
        Chronological Section.position song.sections := by
  intro song member
  obtain ⟨opening, others, sections, opens, _⟩ :=
    parsed_of_mem_parseMarkers member
  have ordered := chronological_flat cuePoints
  rw [Chronological, flat, List.pairwise_flatMap] at ordered
  exact ⟨opening, others, sections, opens, ordered.1 song member⟩

/-- The current section has indices of its own. -/
theorem ne_of_current?
    {entry : (Int × Int) × Section}
    (current : current? entryStart (entries songs) position = some entry) :
    entry.1 ≠ (-1, -1) := by
  intro same
  have nonneg : 0 ≤ entry.1.1 :=
    (mem_entries_iff.mp (mem_of_current? current).1).1
  rw [same] at nonneg
  cases nonneg

/-- The current section is the last one of the set that has started, and there
is none exactly when no section has. -/
theorem findCurrentIndices_parseMarkers
    (cuePoints : List CuePoint)
    (position : ℚ) :
    findCurrentIndices (parseMarkers cuePoints) position =
        ((current? entryStart (entries (parseMarkers cuePoints))
          position).map Prod.fst).getD (-1, -1) ∧
      (findCurrentIndices (parseMarkers cuePoints) position = (-1, -1) ↔
        ∀ item ∈ flat (parseMarkers cuePoints), position < item.position) := by
  have found := findCurrentIndices_eq
    (opens_and_goesForward cuePoints) position
  refine ⟨found, ?_⟩
  rw [found, ← map_snd_entries, List.forall_mem_map]
  change _ ↔ ∀ entry ∈ entries (parseMarkers cuePoints),
    position < entryStart entry
  rw [← current?_eq_none_iff]
  cases current : current? entryStart (entries (parseMarkers cuePoints))
      position with
  | none => simp
  | some entry => exact iff_of_false (ne_of_current? current) (by simp)

/-- The indices are those of a section exactly while playback is between its
marker and the next one. -/
theorem findCurrentIndices_eq_iff
    {songIndex sectionIndex : Int} {item : Section}
    (member : ((songIndex, sectionIndex), item) ∈
      entries (parseMarkers cuePoints)) :
    findCurrentIndices (parseMarkers cuePoints) position =
        (songIndex, sectionIndex) ↔
      item.Spans position := by
  have nonneg := (mem_entries_iff.mp member).1
  have found := findCurrentIndices_eq
    (opens_and_goesForward cuePoints) position
  have same : findCurrentIndices (parseMarkers cuePoints) position =
        (songIndex, sectionIndex) ↔
      current? entryStart (entries (parseMarkers cuePoints)) position =
        some ((songIndex, sectionIndex), item) := by
    rw [found]
    cases current : current? entryStart (entries (parseMarkers cuePoints))
        position with
    | none =>
        apply iff_of_false
        · intro same
          have negative : -1 = songIndex := congrArg Prod.fst same
          omega
        · simp
    | some entry =>
        simp only [Option.map_some, Option.getD_some, Option.some.injEq]
        constructor
        · exact indices_injective (mem_of_current? current).1 member
        · rintro rfl
          rfl
  obtain ⟨early, late, split⟩ := List.append_of_mem member
  have ordered := chronological_entries cuePoints
  have distinct := nodup_entries (parseMarkers cuePoints)
  rw [same]
  rw [split] at ordered distinct ⊢
  rw [current?_eq_some_iff ordered distinct]
  have length := (lengthsLeadOn_parseMarkers cuePoints (early.map Prod.snd)
    item (late.map Prod.snd) (by rw [← map_snd_entries, split]; simp)).1
  cases late with
  | nil =>
      simp only [List.map_nil, List.head?_nil, Option.map_none] at length
      simp [Section.Spans, entryStart, length]
  | cons next rest =>
      simp only [List.map_cons, List.head?_cons, Option.map_some] at length
      simp [Section.Spans, entryStart, length]

/-- Two positions have the same indices exactly when the same sections have
started at both. -/
theorem findCurrentIndices_eq_findCurrentIndices_iff
    (cuePoints : List CuePoint)
    (position other : ℚ) :
    findCurrentIndices (parseMarkers cuePoints) position =
        findCurrentIndices (parseMarkers cuePoints) other ↔
      ∀ item ∈ flat (parseMarkers cuePoints),
        item.position ≤ position ↔ item.position ≤ other := by
  have parsed := opens_and_goesForward cuePoints
  have sections : (∀ item ∈ flat (parseMarkers cuePoints),
        item.position ≤ position ↔ item.position ≤ other) ↔
      current? entryStart (entries (parseMarkers cuePoints)) position =
        current? entryStart (entries (parseMarkers cuePoints)) other := by
    rw [current?_eq_iff (chronological_entries cuePoints), ← map_snd_entries,
      List.forall_mem_map]
    rfl
  rw [sections, findCurrentIndices_eq parsed, findCurrentIndices_eq parsed]
  constructor
  · intro same
    cases first : current? entryStart (entries (parseMarkers cuePoints))
        position with
    | none =>
        cases second : current? entryStart (entries (parseMarkers cuePoints))
            other with
        | none => rfl
        | some entry =>
            rw [first, second] at same
            exact absurd same.symm (ne_of_current? second)
    | some entry =>
        cases second : current? entryStart (entries (parseMarkers cuePoints))
            other with
        | none =>
            rw [first, second] at same
            exact absurd same (ne_of_current? first)
        | some later =>
            rw [first, second] at same
            exact congrArg some (indices_injective (mem_of_current? first).1
              (mem_of_current? second).1 same)
  · intro same
    rw [same]

end Parser
end AbletonTracks
