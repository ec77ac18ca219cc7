import AbletonTracks.Library.Matching
import AbletonTracks.Library.Sorting
import AbletonTracks.Library.Text
import AbletonTracks.State
import Mathlib.Algebra.Order.Ring.Rat
import Mathlib.Data.Prod.Lex

/-!
# Parsing cue points

Ableton's flat list of cue points becomes a tree of songs and sections.  A
song starts at a `== Title ==` header or at a start keyword; every other
marker is a section of the song before it.
-/

namespace AbletonTracks

open Library

/-- A cue point as the bridge decodes it. -/
structure CuePoint where
  name : String
  position : ℚ
  deriving DecidableEq

namespace Parser

/-- `SONG_HEADER.match(name)`, with the captured title: the pattern
`^==\s*(.+?)\s*==$`. -/
def songHeader? (name : String) : Option String :=
  let titles :=
    (Matching.literal ['=', '='] name.toList).flatMap fun opened =>
    (Matching.greedyStar Text.isSpace opened).flatMap fun start =>
    (Matching.lazyPlus Matching.anyChar start).flatMap fun title =>
    (Matching.greedyStar Text.isSpace title.2).flatMap fun closing =>
    ((Matching.literal ['=', '='] closing).filter Matching.atEnd).map
      fun _ => title.1
  titles.head?.map String.ofList

/-- `SONG_START_KEYWORDS`. -/
def songStartKeywords : List String :=
  ["start", "inicio", "início", "começo", "comienzo", "début", "debut",
    "anfang", "inizio"]

/-- `LOOP_SECTION_KEYWORD`. -/
def loopSectionKeyword : String := "loop"

/-- `_is_song_start`. -/
def isSongStart (name : String) : Bool :=
  Text.lower (Text.strip name) ∈ songStartKeywords

/-- `_is_loop_section`. -/
def isLoopSection (name : String) : Bool :=
  Text.lower (Text.strip name) = loopSectionKeyword

/-- `sort_key`: by position, headers first. -/
def sortKey (cue : CuePoint) : ℚ ×ₗ Nat :=
  toLex (cue.position,
    if (songHeader? (Text.strip cue.name)).isSome then 0 else 1)

/-- `original_index`: where Ableton's own list has a cue; of several with one
name and position, the last. -/
def originalIndex (cuePoints : List CuePoint) : Dict (String × ℚ) Nat :=
  cuePoints.zipIdx.foldl
    (fun index cue =>
      index.insert (Text.strip cue.1.name, cue.1.position) cue.2) ∅

/-- Append a section to the song opened last. -/
def addSection (songs : List Song) (added : Section) : List Song :=
  match songs.getLast? with
  | none => songs
  | some song =>
      songs.dropLast ++ [{ song with sections := song.sections ++ [added] }]

/-- Body of the loop over the sorted cues. -/
def addCue (index : Dict (String × ℚ) Nat) (songs : List Song)
    (cue : CuePoint) : List Song :=
  let name := Text.strip cue.name
  let position := cue.position
  -- Every cue is in the index, see `originalIndex_isSome`.
  let cueIndex := (index.get? (name, position)).getD 0
  match songHeader? name with
  | some title =>
      songs ++ [⟨title, position, [⟨"Start", position, cueIndex, false, none⟩]⟩]
  | none =>
      if isSongStart name then
        songs ++ [⟨"Song " ++ toString (songs.length + 1), position,
          [⟨name, position, cueIndex, false, none⟩]⟩]
      else
        addSection songs ⟨name, position, cueIndex, isLoopSection name, none⟩

/-- Lengths of consecutive sections; `next` is the position of the marker
after the last of them. -/
def annotateSections : List Section → Option ℚ → List Section
  | [], _ => []
  | this :: rest, next =>
      let following := (rest.head?.map Section.position).or next
      { this with length := following.map fun position =>
          position - this.position } :: annotateSections rest next

/-- `_annotate_section_lengths`: across song boundaries too. -/
def annotateSectionLengths : List Song → List Song
  | [] => []
  | song :: rest =>
      let next := (rest.flatMap Song.sections).head?.map Section.position
      { song with sections := annotateSections song.sections next } ::
        annotateSectionLengths rest

/-- `parse_markers`. -/
def parseMarkers (cuePoints : List CuePoint) : List Song :=
  let sortedCues := sortedBy sortKey cuePoints
  annotateSectionLengths <|
    sortedCues.foldl (addCue (originalIndex cuePoints)) []

/-- The inner loop of `find_current_indices`: the last section of the song
before the first one that has not started. -/
def currentSection (sections : List Section) (position : ℚ) : Int :=
  (sections.takeWhile fun item => item.position ≤ position).length - 1

/-- `find_current_indices`. -/
def findCurrentIndices (songs : List Song) (position : ℚ) : Int × Int :=
  songs.zipIdx.foldl
    (fun current song =>
      if song.1.position ≤ position then
        (song.2, currentSection song.1.sections position)
      else current) (-1, -1)

/-- The lookup `original_index[(name, position)]` of a cue never fails. -/
theorem originalIndex_isSome
    {cuePoints : List CuePoint}
    {cue : CuePoint}
    (member : cue ∈ sortedBy sortKey cuePoints) :
    ((originalIndex cuePoints).get?
      (Text.strip cue.name, cue.position)).isSome := by
  rw [mem_sortedBy] at member
  have indexed : ∀ (cues : List (CuePoint × Nat)) (index : Dict _ Nat),
      (∃ entry ∈ cues, entry.1 = cue) ∨
        (Text.strip cue.name, cue.position) ∈ index →
      (Text.strip cue.name, cue.position) ∈ cues.foldl
        (fun index cue =>
          index.insert (Text.strip cue.1.name, cue.1.position) cue.2)
        index := by
    intro cues
    induction cues with
    | nil => simp
    | cons entry rest inductionHypothesis =>
        intro index present
        refine inductionHypothesis _ ?_
        rcases present with ⟨found, foundMember, rfl⟩ | before
        · rcases List.mem_cons.mp foundMember with rfl | later
          · exact Or.inr (Dict.mem_insert.mpr (Or.inl rfl))
          · exact Or.inl ⟨found, later, rfl⟩
        · exact Or.inr (Dict.mem_insert.mpr (Or.inr before))
  have present := indexed cuePoints.zipIdx ∅ (Or.inl ?_)
  · obtain ⟨value, found⟩ := Dict.mem_iff_exists_get?.mp present
    rw [originalIndex, found]
    rfl
  · obtain ⟨position, bound, rfl⟩ := List.getElem_of_mem member
    exact ⟨(cuePoints[position], position),
      List.mem_zipIdx_iff_getElem?.mpr (by simp), rfl⟩

example :
    parseMarkers [⟨"Verse 1", 8⟩, ⟨"== Amazing Grace ==", 0⟩] =
      [⟨"Amazing Grace", 0, [⟨"Start", 0, 1, false, some 8⟩,
        ⟨"Verse 1", 8, 0, false, none⟩]⟩] := by
  decide +kernel

end Parser
end AbletonTracks
