import AbletonTracks.Library.Timeline
import AbletonTracks.Parser.Songs
import Mathlib.Data.List.Induction

/-!
# The tree of songs as a whole

In the order of the set, `parse_markers` keeps every cue from the first song
start on, and nothing else.  A song is made of one cue that starts it and of
the cues up to the next start; the lengths lead from each section to the next
one of the set.
-/

namespace AbletonTracks

open Library

namespace Parser

/-- The cue starts a song: it is a header or a start keyword. -/
def startsSong (cue : CuePoint) : Bool :=
  (songHeader? (Text.strip cue.name)).isSome ||
    isSongStart (Text.strip cue.name)

/-- What a cue's section is called. -/
def sectionName (cue : CuePoint) : String :=
  if (songHeader? (Text.strip cue.name)).isSome then "Start"
  else Text.strip cue.name

/-- The cues from the first song start on. -/
def fromFirstStart (cues : List CuePoint) : List CuePoint :=
  cues.dropWhile fun cue => !startsSong cue

/-- The flattened sections of the set. -/
def flat (songs : List Song) : List Section :=
  songs.flatMap Song.sections

/-- Every section's length leads to the next one, and the last has none. -/
def LengthsLeadOn (sections : List Section) : Prop :=
  ∀ early item late, sections = early ++ item :: late →
    item.length = late.head?.map (fun next => next.position - item.position) ∧
      (item.length = none ↔ late = []) ∧ ∀ length ∈ item.length, 0 ≤ length

end Parser

/-- The section stands where the cue does and has its name. -/
structure Section.Shows (item : Section) (cue : CuePoint) : Prop where
  position : item.position = cue.position
  name : item.name = Parser.sectionName cue

/-- The song starts at the first of the cues, the only one that starts a song,
and has a section for each of them. -/
structure Song.MadeOf (song : Song) (group : List CuePoint) : Prop where
  opens : ∃ first rest, group = first :: rest ∧
    Parser.startsSong first = true ∧ song.position = first.position ∧
    ∀ cue ∈ rest, Parser.startsSong cue = false
  shows : List.Forall₂ Section.Shows song.sections group

namespace Parser

variable {index : Dict (String × ℚ) Nat} {songs : List Song}
  {done : List CuePoint} {cue : CuePoint}

/-! ## Building the songs -/

/-- The songs are made of these cues. -/
def BuiltFrom (songs : List Song) (cues : List CuePoint) : Prop :=
  ∃ groups, groups.flatten = fromFirstStart cues ∧
    List.Forall₂ Song.MadeOf songs groups

theorem fromFirstStart_append_of_starts
    (starts : startsSong cue = true) :
    fromFirstStart (done ++ [cue]) = fromFirstStart done ++ [cue] := by
  simp only [fromFirstStart, List.dropWhile_append]
  split
  · rename_i nothing
    rw [List.isEmpty_iff.mp nothing]
    simp [starts]
  · rfl

theorem fromFirstStart_append_of_not_starts
    (follows : startsSong cue = false) :
    fromFirstStart (done ++ [cue]) =
      if fromFirstStart done = [] then [] else fromFirstStart done ++ [cue] := by
  by_cases nothing : fromFirstStart done = []
  · rw [fromFirstStart] at nothing
    simp [fromFirstStart, List.dropWhile_append, nothing, follows]
  · rw [fromFirstStart] at nothing
    simp [fromFirstStart, List.dropWhile_append, nothing]

/-- The last of the related entries. -/
theorem forall₂_concat_left
    {α β : Type} {related : α → β → Prop}
    {early : List α} {last : α} {others : List β}
    (all : List.Forall₂ related (early ++ [last]) others) :
    ∃ before final, others = before ++ [final] ∧
      List.Forall₂ related early before ∧ related last final := by
  rw [← List.forall₂_reverse_iff, List.reverse_append] at all
  obtain ⟨final, before, related, rest, same⟩ :=
    List.forall₂_cons_left_iff.mp all
  refine ⟨before.reverse, final, ?_, ?_, related⟩
  · rw [← List.reverse_reverse others, same, List.reverse_cons]
  · rw [← List.forall₂_reverse_iff, List.reverse_reverse]
    exact rest

theorem forall₂_concat
    {α β : Type} {related : α → β → Prop}
    {early : List α} {before : List β} {last : α} {final : β}
    (all : List.Forall₂ related early before)
    (ends : related last final) :
    List.Forall₂ related (early ++ [last]) (before ++ [final]) := by
  induction all with
  | nil => exact .cons ends .nil
  | cons first _ inductionHypothesis => exact .cons first inductionHypothesis

/-- A cue that starts a song opens one. -/
theorem BuiltFrom.opens
    {song : Song}
    (built : BuiltFrom songs done)
    (starts : startsSong cue = true)
    (made : song.MadeOf [cue]) :
    BuiltFrom (songs ++ [song]) (done ++ [cue]) := by
  obtain ⟨groups, whole, all⟩ := built
  refine ⟨groups ++ [[cue]], ?_, forall₂_concat all made⟩
  rw [fromFirstStart_append_of_starts starts, List.flatten_append, whole]
  rfl

/-- Any other cue joins the song opened last, if there is one. -/
theorem BuiltFrom.joins
    {added : Section}
    (built : BuiltFrom songs done)
    (follows : startsSong cue = false)
    (shows' : added.Shows cue) :
    BuiltFrom (addSection songs added) (done ++ [cue]) := by
  obtain ⟨groups, whole, all⟩ := built
  rw [BuiltFrom, fromFirstStart_append_of_not_starts follows]
  cases songs using List.reverseRecOn with
  | nil =>
      obtain rfl := List.forall₂_nil_left_iff.mp all
      have nothing : fromFirstStart done = [] := whole.symm
      rw [if_pos nothing]
      exact ⟨[], rfl, .nil⟩
  | append_singleton early last _ =>
      obtain ⟨before, group, rfl, earlier, made⟩ := forall₂_concat_left all
      obtain ⟨first, rest, rfl, starts, position, others⟩ := made.opens
      have nonempty : fromFirstStart done ≠ [] := by
        rw [← whole]
        simp
      have addedTo : addSection (early ++ [last]) added =
          early ++ [{ last with sections := last.sections ++ [added] }] := by
        simp [addSection]
      rw [if_neg nonempty, ← whole, addedTo]
      refine ⟨before ++ [first :: rest ++ [cue]], by simp,
        forall₂_concat earlier ⟨?_, forall₂_concat made.shows shows'⟩⟩
      refine ⟨first, rest ++ [cue], rfl, starts, position, ?_⟩
      intro other member
      rcases List.mem_append.mp member with old | new
      · exact others other old
      · obtain rfl := List.mem_singleton.mp new
        exact follows

/-- The body of the loop: one cue more is built in. -/
theorem BuiltFrom.addCue
    (built : BuiltFrom songs done)
    (cue : CuePoint) :
    BuiltFrom (addCue index songs cue) (done ++ [cue]) := by
  simp only [Parser.addCue]
  cases header : songHeader? (Text.strip cue.name) with
  | some title =>
      have starts : startsSong cue = true := by simp [startsSong, header]
      refine built.opens starts ⟨⟨cue, [], rfl, starts, rfl, by simp⟩, ?_⟩
      exact .cons ⟨rfl, by simp [sectionName, header]⟩ .nil
  | none =>
      have name : sectionName cue = Text.strip cue.name := by
        simp [sectionName, header]
      simp only
      split
      · rename_i keyword
        have starts : startsSong cue = true := by
          simp [startsSong, keyword]
        refine built.opens starts ⟨⟨cue, [], rfl, starts, rfl, by simp⟩, ?_⟩
        exact .cons ⟨rfl, name.symm⟩ .nil
      · rename_i other
        apply built.joins
        · simpa [startsSong, header] using other
        · exact ⟨rfl, name.symm⟩

/-- The loop builds all the cues in. -/
theorem builtFrom_foldl (cues : List CuePoint) :
    BuiltFrom (cues.foldl (addCue index) []) cues := by
  induction cues using List.reverseRecOn with
  | nil => exact ⟨[], rfl, .nil⟩
  | append_singleton early last inductionHypothesis =>
      rw [List.foldl_append, List.foldl_cons, List.foldl_nil]
      exact inductionHypothesis.addCue last

/-! ## Annotating the lengths -/

theorem head?_annotateSections (sections : List Section) (next : Option ℚ) :
    (annotateSections sections next).head?.map Section.position =
      sections.head?.map Section.position := by
  cases sections <;> rfl

/-- The lengths of the first sections need only the start of the others. -/
theorem annotateSections_append
    (early late : List Section)
    (next : Option ℚ) :
    annotateSections (early ++ late) next =
      annotateSections early ((late.head?.map Section.position).or next) ++
        annotateSections late next := by
  induction early with
  | nil => rfl
  | cons this rest inductionHypothesis =>
      simp only [List.cons_append, annotateSections, inductionHypothesis,
        List.head?_append, Option.map_or, Option.or_assoc]

/-- Song by song or in one go: the lengths are the same. -/
theorem flat_annotateSectionLengths (songs : List Song) :
    flat (annotateSectionLengths songs) =
      annotateSections (flat songs) none := by
  induction songs with
  | nil => rfl
  | cons song rest inductionHypothesis =>
      simp only [flat, annotateSectionLengths, List.flatMap_cons] at *
      rw [inductionHypothesis, annotateSections_append, Option.or_none]

theorem length_of_annotateSections
    {sections early late : List Section} {item : Section}
    (split : annotateSections sections none = early ++ item :: late) :
    item.length =
      late.head?.map fun next => next.position - item.position := by
  induction sections generalizing early with
  | nil => simp [annotateSections] at split
  | cons this rest inductionHypothesis =>
      cases early with
      | nil =>
          obtain ⟨rfl, rfl⟩ := List.cons.inj split
          simp only [Option.or_none, ← head?_annotateSections rest none,
            Option.map_map]
          rfl
      | cons first before =>
          exact inductionHypothesis (List.cons.inj split).2

theorem shows_annotateSections
    {sections : List Section} {group : List CuePoint} {next : Option ℚ}
    (shows' : List.Forall₂ Section.Shows sections group) :
    List.Forall₂ Section.Shows (annotateSections sections next) group := by
  induction shows' with
  | nil => exact .nil
  | cons first _ inductionHypothesis =>
      exact .cons ⟨first.position, first.name⟩ inductionHypothesis

/-- Annotating the lengths moves no section. -/
theorem BuiltFrom.annotate
    (built : BuiltFrom songs done) :
    BuiltFrom (annotateSectionLengths songs) done := by
  obtain ⟨groups, whole, all⟩ := built
  refine ⟨groups, whole, ?_⟩
  clear whole
  induction all with
  | nil => exact .nil
  | cons made _ inductionHypothesis =>
      exact .cons ⟨made.opens, shows_annotateSections made.shows⟩
        inductionHypothesis

theorem builtFrom_parseMarkers (cuePoints : List CuePoint) :
    BuiltFrom (parseMarkers cuePoints) (sortedBy sortKey cuePoints) :=
  (builtFrom_foldl _).annotate

/-! ## The set in order -/

/-- The flattened sections show the cues, one by one. -/
theorem BuiltFrom.shows_flat
    (built : BuiltFrom songs done) :
    List.Forall₂ Section.Shows (flat songs) (fromFirstStart done) := by
  obtain ⟨groups, whole, all⟩ := built
  rw [← whole]
  clear whole
  induction all with
  | nil => exact .nil
  | cons made _ inductionHypothesis =>
      exact List.rel_append made.shows inductionHypothesis

theorem positions_of_shows
    {sections : List Section} {cues : List CuePoint}
    (shows' : List.Forall₂ Section.Shows sections cues) :
    sections.map Section.position = cues.map CuePoint.position := by
  induction shows' with
  | nil => rfl
  | cons first _ inductionHypothesis =>
      rw [List.map_cons, List.map_cons, first.position, inductionHypothesis]

/-- The sections of a set never go back. -/
theorem chronological_flat (cuePoints : List CuePoint) :
    Chronological Section.position (flat (parseMarkers cuePoints)) := by
  have positions : (flat (parseMarkers cuePoints)).map Section.position =
      (fromFirstStart (sortedBy sortKey cuePoints)).map CuePoint.position :=
    positions_of_shows (builtFrom_parseMarkers cuePoints).shows_flat
  have ordered := (stablySorted_sortedBy sortKey cuePoints).ordered
  have kept : (fromFirstStart (sortedBy sortKey cuePoints)).Pairwise
      fun early late => early.position ≤ late.position := by
    apply (ordered.sublist (List.dropWhile_sublist _)).imp
    intro early late before
    rcases Prod.Lex.toLex_le_toLex.mp before with earlier | ⟨same, _⟩
    · exact earlier.le
    · exact le_of_eq same
  rw [Chronological, ← List.pairwise_map, positions, List.pairwise_map]
  exact kept

theorem lengthsLeadOn_parseMarkers (cuePoints : List CuePoint) :
    LengthsLeadOn (flat (parseMarkers cuePoints)) := by
  intro early item late split
  have length : item.length =
      late.head?.map fun next => next.position - item.position := by
    rw [parseMarkers, flat_annotateSectionLengths] at split
    exact length_of_annotateSections split
  have ordered := chronological_flat cuePoints
  rw [split] at ordered
  have behind := (List.pairwise_cons.mp
    (List.pairwise_append.mp ordered).2.1).1
  rw [length]
  cases late with
  | nil => simp
  | cons next rest => simpa using behind next List.mem_cons_self

/-- Parsing loses, invents and reorders nothing: sorted stably, headers first,
and from the first song start on, the cues are the sections of the set. -/
theorem parseMarkers_tree (cuePoints : List CuePoint) :
    ∃ order, StablySorted sortKey cuePoints order ∧
      List.Forall₂ Section.Shows (flat (parseMarkers cuePoints))
        (fromFirstStart order) ∧
      (∃ groups, groups.flatten = fromFirstStart order ∧
        List.Forall₂ Song.MadeOf (parseMarkers cuePoints) groups) ∧
      (∀ song ∈ parseMarkers cuePoints, song.sections ≠ []) ∧
      LengthsLeadOn (flat (parseMarkers cuePoints)) := by
  have built := builtFrom_parseMarkers cuePoints
  refine ⟨sortedBy sortKey cuePoints, stablySorted_sortedBy _ _,
    built.shows_flat, built, ?_, lengthsLeadOn_parseMarkers cuePoints⟩
  intro song member
  obtain ⟨opening, others, sections, _⟩ := parsed_of_mem_parseMarkers member
  simp [sections]

end Parser
end AbletonTracks
