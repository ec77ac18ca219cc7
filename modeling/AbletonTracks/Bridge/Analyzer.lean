import AbletonTracks.Library.Pattern
import AbletonTracks.Library.Spacing
import AbletonTracks.Remote.Analysis

/-!
# The guide track analyzer

`bridge/analyzer.py`: what is heard on a guide track becomes sections with a
name, a time and a beat.  The tempo that is detected and the segments that are
transcribed are parameters, and so is which characters are those of words.
-/

namespace AbletonTracks

open Library

/-- A segment of the transcript; it starts at a time in seconds. -/
structure Segment where
  text : String
  start : ℚ
  deriving DecidableEq

/-- A section announcement. -/
structure Announcement where
  name : String
  timestamp : ℚ
  deriving DecidableEq

/-- What `analyze_guide` returns. -/
structure GuideAnalysis where
  bpm : ℚ
  sections : List AnalysisSection
  deriving DecidableEq

namespace Analyzer

open Pattern

/-- `\b...\b`. -/
def whole (patterns : List Pattern) : Pattern :=
  all ([boundary] ++ patterns ++ [boundary])

/-- `\s`, `\d` and `.`. -/
def digit (char : Char) : Bool := (Text.digitValue? char).isSome

/-- `_STRIP_PATTERNS`. -/
def stripPatterns : List Pattern :=
  [whole [text "all", some' Text.isSpace, text "in"],
    whole [text "drum", optional (text "s"), many Text.isSpace,
      any [text "in", text "out",
        sequence (text "n") (optional (one (· = '.')))]],
    whole [text "band", many Text.isSpace, any [text "in", text "out"]],
    whole [text "everybody", some' Text.isSpace, text "in"],
    whole [text "full", some' Text.isSpace, text "band"],
    whole [text "count", many Text.isSpace, any [text "in", text "off"]],
    whole [some' digit, many Text.isSpace, one (· = ','), many Text.isSpace,
      some' digit]]

/-- `_SECTION_RULES`. -/
def sectionRules : List (Pattern × String) :=
  let verse (number : Char) :=
    whole [text "verse", many Text.isSpace, one (· = number)]
  let anyChar := optional (one (· ≠ '\n'))
  [(whole [any [text "intro", text "entro"]], "Intro"),
    (verse '1', "Verse 1"),
    (verse '2', "Verse 2"),
    (verse '3', "Verse 3"),
    (verse '4', "Verse 4"),
    (whole [text "verse"], "Verse"),
    (whole [text "pre", anyChar, text "chorus"], "Pre-Chorus"),
    (whole [text "chorus"], "Chorus"),
    (whole [text "refrain"], "Refrain"),
    (whole [text "build"], "Build"),
    (whole [text "bridge"], "Bridge"),
    (whole [text "vamp"], "Vamp"),
    (whole [any [text "tag", text "tack", text "task"]], "Tag"),
    (whole [text "outro", some' Text.isSpace, text "breakdown"],
      "Outro Breakdown"),
    (whole [text "outro", some' Text.isSpace, text "end",
      optional (text "ing")], "Outro Ending"),
    (whole [text "outro"], "Outro"),
    (whole [text "break"], "Break"),
    (whole [text "interlude"], "Interlude"),
    (whole [text "solo"], "Solo"),
    (whole [text "turn", anyChar, text "around"], "Turnaround"),
    (whole [text "end"], "End")]

/-- The characters that `t.strip(' ,.-')` drops. -/
def isTrimmed (char : Char) : Bool := char ∈ [' ', ',', '.', '-']

variable (isWord : Char → Bool)

/-- `_normalize_section`. -/
def normalizeSection (text : String) : Option String :=
  let lowered := Text.stripChars (Text.lower text).toList
  let stripped := stripPatterns.foldl
    (fun chars pattern => pattern.remove isWord chars) lowered
  let trimmed := (stripped.dropWhile isTrimmed).rdropWhile isTrimmed
  (sectionRules.find? fun rule => rule.1.search isWord trimmed).map Prod.snd

/-- The announcement of a segment, if it is one. -/
def announcement? (segment : Segment) : Option Announcement :=
  (normalizeSection isWord segment.text).map fun name =>
    ⟨name, segment.start⟩

/-- Two announcements of one name within two seconds.  The difference is exact;
in the source it is a double, and may be rounded up to two. -/
def Duplicates (early late : Announcement) : Prop :=
  early.name = late.name ∧ |early.timestamp - late.timestamp| < 2

instance : DecidableRel Duplicates := fun _ _ =>
  inferInstanceAs (Decidable (_ ∧ _))

/-- `transcribe_sections`. -/
def transcribeSections (segments : List Segment) : List Announcement :=
  segments.foldl
    (fun sections segment =>
      match normalizeSection isWord segment.text with
      | none => sections
      | some name => keepOne Duplicates sections ⟨name, segment.start⟩) []

/-- `detect_bpm`, of a tempo that was detected. -/
def detectBpm (tempo : ℚ) : ℚ :=
  roundTo 1
    (if 160 < tempo then tempo / 2
    else if tempo < 60 then tempo * 2
    else tempo)

/-- `analyze_guide`. -/
def analyzeGuide (tempo : ℚ) (segments : List Segment) : GuideAnalysis :=
  let bpm := detectBpm tempo
  ⟨bpm, (transcribeSections isWord segments).map fun cue =>
    ⟨cue.name, roundTo 3 cue.timestamp,
      roundTo 3 (cue.timestamp * bpm / 60)⟩⟩

/-- What `_normalize_section` can return. -/
def sectionNames : List String := sectionRules.map Prod.snd

variable {isWord}

/-- What is returned is one of the names. -/
theorem normalizeSection_mem
    {text name : String}
    (recognised : normalizeSection isWord text = some name) :
    name ∈ sectionNames := by
  unfold normalizeSection at recognised
  dsimp only at recognised
  rw [Option.map_eq_some_iff] at recognised
  obtain ⟨rule, found, rfl⟩ := recognised
  unfold sectionNames
  generalize sectionRules = rules at found
  exact List.mem_map_of_mem (List.mem_of_find?_eq_some found)

/-- The loop keeps the announcements apart. -/
theorem transcribeSections_eq (segments : List Segment) :
    transcribeSections isWord segments =
      keepApart Duplicates (segments.filterMap (announcement? isWord)) := by
  unfold transcribeSections keepApart
  generalize [] = sections
  induction segments generalizing sections with
  | nil => rfl
  | cons segment rest inductionHypothesis =>
      rw [List.foldl_cons, List.filterMap_cons]
      cases recognised : normalizeSection isWord segment.text with
      | none =>
          have silent : announcement? isWord segment = none := by
            rw [announcement?, recognised]
            rfl
          rw [silent]
          exact inductionHypothesis sections
      | some name =>
          have heard : announcement? isWord segment =
              some ⟨name, segment.start⟩ := by
            rw [announcement?, recognised]
            rfl
          rw [heard]
          exact inductionHypothesis _

/-- What is transcribed is in the order of the segments, no name comes again
within two seconds, and an announcement is left out only for an earlier one of
its name that is kept and less than two seconds away. -/
theorem transcribeSections_spec
    (isWord : Char → Bool)
    (segments : List Segment) :
    let announced := segments.filterMap (announcement? isWord)
    let heard := transcribeSections isWord segments
    heard.Sublist announced ∧
      (∀ cue ∈ heard, cue.name ∈ sectionNames) ∧
      (heard.Pairwise fun early late => early.name = late.name →
        2 ≤ |early.timestamp - late.timestamp|) ∧
      ∀ early cue late, announced = early ++ cue :: late →
        cue ∈ heard ∨ ∃ other ∈ early, other ∈ heard ∧
          other.name = cue.name ∧ |other.timestamp - cue.timestamp| < 2 := by
  intro announced heard
  have same : heard = keepApart Duplicates announced :=
    transcribeSections_eq segments
  have sublist : heard.Sublist announced := same ▸ keepApart_sublist announced
  refine ⟨sublist, ?_, ?_, ?_⟩
  · intro cue member
    obtain ⟨segment, _, found⟩ :=
      List.mem_filterMap.mp (sublist.subset member)
    obtain ⟨name, recognised, rfl⟩ := Option.map_eq_some_iff.mp found
    exact normalizeSection_mem recognised
  · rw [same]
    refine (pairwise_keepApart announced).imp ?_
    intro early late apart named
    exact not_lt.mp fun close => apart ⟨named, close⟩
  · intro early cue late split
    rcases kept_or_close Duplicates split with kept | close
    · exact Or.inl (same ▸ kept)
    · obtain ⟨other, member, named, near⟩ := close
      have extended := keepApart_append_prefix Duplicates early (cue :: late)
      rw [← split, ← same] at extended
      exact Or.inr ⟨other, (keepApart_sublist early).subset member,
        extended.subset member, named, near⟩

end Analyzer
end AbletonTracks
