import AbletonTracks.Parser.CueIndex

/-!
# A set with one header

Cue points that lie one behind the other, of which only the first starts a
song, become one song: its sections are the cue points in their order.
-/

namespace AbletonTracks

open Library

namespace Parser

/-- The section of a cue with its place in the list. -/
def placedSection (cue : CuePoint × Nat) : Section where
  name := sectionName cue.1
  position := cue.1.position
  cueIndex := cue.2
  isLoop := !startsSong cue.1 && isLoopSection (Text.strip cue.1.name)
  length := none

/-- The song of a header with the markers behind it. -/
def headedSong
    (title : String)
    (header : CuePoint)
    (markers : List CuePoint) : Song where
  name := title
  position := header.position
  sections :=
    annotateSections ((header :: markers).zipIdx.map placedSection) none

/-- Each cue point lies behind the one before it. -/
def Ascending (cuePoints : List CuePoint) : Prop :=
  cuePoints.Pairwise fun early late => early.position < late.position

instance (cuePoints : List CuePoint) : Decidable (Ascending cuePoints) :=
  inferInstanceAs (Decidable (List.Pairwise _ _))

variable {cuePoints markers : List CuePoint} {header : CuePoint}
  {title : String} {index : Dict (String × ℚ) Nat}

theorem Ascending.noTies (ascending : Ascending cuePoints) :
    NoTies cuePoints :=
  List.Pairwise.imp (fun before same => before.ne same.1) ascending

theorem Ascending.sortedBy_eq (ascending : Ascending cuePoints) :
    sortedBy sortKey cuePoints = cuePoints := by
  refine List.Pairwise.insertionSort_eq (ascending.imp ?_)
  intro early late before
  exact (Prod.Lex.toLex_lt_toLex.mpr (Or.inl before)).le

/-- The loop keeps every marker in the song of the header. -/
theorem foldl_addCue_headed
    (read : songHeader? (Text.strip header.name) = some title)
    (follow : ∀ cue ∈ markers, startsSong cue = false) :
    (header :: markers).foldl (addCue index) [] =
      [⟨title, header.position,
        (header :: markers).map (sectionOf index)⟩] := by
  induction markers using List.reverseRecOn with
  | nil => simp [addCue, read, sectionOf, sectionName, startsSong, markerKey]
  | append_singleton early last inductionHypothesis =>
      rw [List.forall_mem_append, List.forall_mem_singleton] at follow
      rw [← List.cons_append, List.foldl_append,
        inductionHypothesis follow.1]
      have plain := follow.2
      simp only [startsSong, Bool.or_eq_false_iff,
        Option.isSome_eq_false_iff, Option.isNone_iff_eq_none] at plain
      simp [addCue, plain, addSection, sectionOf, sectionName, startsSong,
        markerKey]

/-- In a list without ties each cue has the index of its place. -/
theorem map_sectionOf_originalIndex (noTies : NoTies cuePoints) :
    cuePoints.map (sectionOf (originalIndex cuePoints)) =
      cuePoints.zipIdx.map placedSection := by
  refine List.ext_getElem (by simp) fun place inside _ => ?_
  rw [List.length_map] at inside
  simp only [List.getElem_map, List.getElem_zipIdx, sectionOf,
    get?_originalIndex noTies (List.getElem?_eq_getElem inside)]
  simp [placedSection]

theorem parseMarkers_headed
    (read : songHeader? (Text.strip header.name) = some title)
    (follow : ∀ cue ∈ markers, startsSong cue = false)
    (ascending : Ascending (header :: markers)) :
    parseMarkers (header :: markers) = [headedSong title header markers] := by
  rw [parseMarkers, ascending.sortedBy_eq, foldl_addCue_headed read follow,
    map_sectionOf_originalIndex ascending.noTies]
  rfl

/-! ## The other way round -/

theorem map_position_annotateSections
    (sections : List Section)
    (next : Option ℚ) :
    (annotateSections sections next).map Section.position =
      sections.map Section.position := by
  induction sections with
  | nil => rfl
  | cons this rest inductionHypothesis =>
      simp only [annotateSections, List.map_cons, inductionHypothesis]

/-- A set has at most one section for each cue point. -/
theorem length_flat_le (cuePoints : List CuePoint) :
    (flat (parseMarkers cuePoints)).length ≤ cuePoints.length := by
  rw [(builtFrom_parseMarkers cuePoints).shows_flat.length_eq,
    ← (sortedBy_perm sortKey cuePoints).length_eq]
  exact (List.dropWhile_sublist _).length_le

end Parser
end AbletonTracks
