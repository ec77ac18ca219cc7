import AbletonTracks.Parser.CueIndex

/-!
# Song headers

The title of a header is captured by a lazy group between two runs of blanks.
The first run gives blanks back only when nothing matches otherwise.  So the
title is the text between the double equals without the blanks around it, if
there is anything but blanks.  Of blanks alone the first run gives the last one
back, and that is captured as the title.
-/

namespace AbletonTracks

open Library

namespace Parser

variable {captured inner opened blanks : List Char}

/-! ## The pattern -/

/-- The end of the pattern, behind a title: `\s*==$`. -/
def closings (title : List Char × List Char) : List (List Char) :=
  (Matching.greedyStar Text.isSpace title.2).flatMap fun closing =>
    ((Matching.literal ['=', '='] closing).filter Matching.atEnd).map
      fun _ => title.1

/-- The titles behind the first `==`, in the order in which they are tried. -/
def titles (opened : List Char) : List (List Char) :=
  (Matching.greedyStar Text.isSpace opened).flatMap fun start =>
    (Matching.lazyPlus Matching.anyChar start).flatMap closings

theorem songHeader?_eq (name : String) :
    songHeader? name =
      ((Matching.literal ['=', '='] name.toList).flatMap titles).head?.map
        String.ofList := rfl

theorem anyChar_of_oneLine (oneLine : '\n' ∉ captured) :
    ∀ char ∈ captured, Matching.anyChar char = true := by
  intro char member
  exact decide_eq_true fun same => oneLine (same ▸ member)

/-- In one line, a title is followed by blanks and `==`. -/
theorem mem_closings
    {title : List Char × List Char}
    (oneLine : '\n' ∉ title.2) :
    captured ∈ closings title ↔ captured = title.1 ∧
      ∃ blanks, (∀ char ∈ blanks, Text.isSpace char = true) ∧
        title.2 = blanks ++ ['=', '='] := by
  simp only [closings, List.mem_flatMap, List.mem_map, List.mem_filter,
    Matching.mem_greedyStar, Matching.mem_literal]
  constructor
  · rintro ⟨closing, ⟨blanks, blank, whole⟩, last, ⟨rfl, ends⟩, rfl⟩
    refine ⟨rfl, blanks, blank, ?_⟩
    rw [whole] at oneLine ⊢
    cases last with
    | nil => rfl
    | cons char more =>
        cases more with
        | nil =>
            unfold Matching.atEnd at ends
            split at ends
            · rename_i impossible
              cases impossible
            · rename_i same
              obtain ⟨rfl, _⟩ := List.cons.inj same
              simp at oneLine
            · cases ends
        | cons => simp [Matching.atEnd] at ends
  · rintro ⟨rfl, blanks, blank, whole⟩
    exact ⟨['=', '='], ⟨blanks, blank, whole⟩, [], ⟨rfl, rfl⟩, rfl⟩

/-- Blanks and `==` behind a title end the pattern. -/
theorem head?_closings
    (blank : ∀ char ∈ blanks, Text.isSpace char = true)
    (oneLine : '\n' ∉ blanks)
    (captured : List Char) :
    (closings (captured, blanks ++ ['=', '='])).head? = some captured := by
  have whole : '\n' ∉ blanks ++ ['=', '='] := by simpa using oneLine
  have closes : captured ∈ closings (captured, blanks ++ ['=', '=']) :=
    (mem_closings whole).mpr ⟨rfl, blanks, blank, rfl⟩
  cases found : closings (captured, blanks ++ ['=', '=']) with
  | nil => rw [found] at closes; cases closes
  | cons first others =>
      have member : first ∈ closings (captured, blanks ++ ['=', '=']) := by
        rw [found]
        exact List.mem_cons_self
      rw [List.head?_cons, ((mem_closings whole).mp member).1]

/-- Every title stands between the two `==`. -/
theorem exists_inner_of_mem_titles
    (oneLine : '\n' ∉ opened)
    (member : captured ∈ titles opened) :
    ∃ inner, inner ≠ [] ∧ opened = inner ++ ['=', '='] := by
  simp only [titles, List.mem_flatMap, Matching.mem_greedyStar,
    Matching.mem_lazyPlus] at member
  obtain ⟨_, ⟨lead, _, rfl⟩, title, ⟨rfl, nonempty, _⟩, closes⟩ := member
  have rest : '\n' ∉ title.2 := by
    intro inRest
    exact oneLine (by simp [inRest])
  obtain ⟨_, blanks, _, whole⟩ := (mem_closings rest).mp closes
  refine ⟨lead ++ (title.1 ++ blanks), by simp [nonempty], ?_⟩
  rw [whole]
  simp only [List.append_assoc]

/-- A shorter title would be followed by its own last character, which is no
blank. -/
theorem closings_eq_nil
    {early late trail : List Char}
    (oneLine : '\n' ∉ late ++ trail)
    (stripped : Text.stripChars inner = early ++ late)
    (nonempty : late ≠ []) :
    closings (early, late ++ (trail ++ ['=', '='])) = [] := by
  rw [List.eq_nil_iff_forall_not_mem]
  intro captured member
  rw [← List.append_assoc] at member
  obtain ⟨_, blanks, blank, whole⟩ :=
    (mem_closings (by simpa using oneLine)).mp member
  obtain ⟨rfl, _⟩ := List.append_inj' whole rfl
  obtain ⟨before, last, rfl⟩ :=
    (List.eq_nil_or_concat late).resolve_left nonempty
  rw [List.concat_eq_append, ← List.append_assoc] at stripped
  have kept := Text.isSpace_last_stripChars stripped
  rw [blank last (by simp)] at kept
  cases kept

/-- The title is the text without the blanks around it. -/
theorem head?_titles
    (oneLine : '\n' ∉ inner)
    (titled : Text.stripChars inner ≠ []) :
    (titles (inner ++ ['=', '='])).head? = some (Text.stripChars inner) := by
  obtain ⟨lead, trail, leadBlank, trailBlank, whole⟩ :=
    Text.exists_blanks_around inner
  obtain ⟨first, rest, stripped⟩ := List.exists_cons_of_ne_nil titled
  have lines : '\n' ∉ Text.stripChars inner ++ trail := by
    rw [whole] at oneLine
    exact fun inside => oneLine (List.mem_append_right _ inside)
  obtain ⟨textLine, trailLine⟩ := not_or.mp (mt List.mem_append.mpr lines)
  -- The first run takes the blanks in front, and no more.
  have start : Matching.greedyStar Text.isSpace
      (Text.stripChars inner ++ (trail ++ ['=', '='])) =
        [Text.stripChars inner ++ (trail ++ ['=', '='])] := by
    rw [stripped]
    exact Matching.greedyStar_of_not (Text.isSpace_head_stripChars stripped) _
  obtain ⟨others, tried⟩ := Matching.exists_greedyStar_append leadBlank
    (Text.stripChars inner ++ (trail ++ ['=', '=']))
  have found := head?_closings trailBlank trailLine (Text.stripChars inner)
  have shortest := Matching.head?_flatMap_lazyPlus
    (anyChar_of_oneLine textLine) titled
    (fun none => by rw [none] at found; cases found)
    (fun early late split _ nonempty =>
      closings_eq_nil (fun inside => lines (by
        rw [split, List.append_assoc]
        exact List.mem_append_right _ inside)) split nonempty)
  have opened : inner ++ ['=', '='] =
      lead ++ (Text.stripChars inner ++ (trail ++ ['=', '='])) :=
    calc inner ++ ['=', '=']
        = lead ++ (Text.stripChars inner ++ trail) ++ ['=', '='] :=
          congrArg (fun text => text ++ ['=', '=']) whole
      _ = lead ++ (Text.stripChars inner ++ (trail ++ ['=', '='])) := by
          rw [List.append_assoc, List.append_assoc]
  rw [opened, titles, tried, start, List.singleton_append, List.flatMap_cons,
    List.head?_append, shortest, found]
  rfl

/-- Of blanks alone, the last one is the title. -/
theorem head?_titles_of_blank
    {last : Char}
    (blank : ∀ char ∈ blanks ++ [last], Text.isSpace char = true)
    (oneLine : last ≠ '\n') :
    (titles (blanks ++ [last] ++ ['=', '='])).head? = some [last] := by
  obtain ⟨leadBlank, lastBlank⟩ := List.forall_mem_append.mp blank
  have isBlank := lastBlank last List.mem_cons_self
  have any : Matching.anyChar last = true := decide_eq_true oneLine
  -- All the blanks, or all but one: before `==` alone, there is no title.
  have start : Matching.greedyStar Text.isSpace [last, '=', '='] =
      [['=', '='], [last, '=', '=']] := by
    rw [Matching.greedyStar, if_pos isBlank,
      Matching.greedyStar_of_not (by decide)]
    rfl
  have nothing : (Matching.lazyPlus Matching.anyChar ['=', '=']).flatMap
      closings = [] := by
    decide
  obtain ⟨others, tried⟩ :=
    Matching.exists_greedyStar_append leadBlank [last, '=', '=']
  have found : (closings ([last], ['=', '='])).head? = some [last] :=
    head?_closings (List.forall_mem_nil _) List.not_mem_nil [last]
  rw [List.append_assoc, List.singleton_append, titles, tried, start,
    List.cons_append, List.flatMap_cons, nothing, List.nil_append,
    List.cons_append, List.flatMap_cons, Matching.lazyPlus, if_pos any,
    List.flatMap_cons, List.head?_append, List.head?_append, found]
  rfl

/-! ## Headers -/

/-- The text has something but blanks. -/
def Titled (text : String) : Prop :=
  ∃ char ∈ text.toList, Text.isSpace char = false

/-- The name is `==`, a text with something but blanks, and `==`; the title is
the text without the blanks around it. -/
def IsHeaderOf (name title : String) : Prop :=
  ∃ inside, name = "==" ++ inside ++ "==" ∧ Titled inside ∧
    title = Text.strip inside

/-- The name is `==`, blanks, and `==`. -/
def BlankHeader (name : String) : Prop :=
  ∃ inside, name = "==" ++ inside ++ "==" ∧ inside ≠ "" ∧
    ∀ char ∈ inside.toList, Text.isSpace char = true

variable {name title inside : String}

theorem titled_iff {text : String} :
    Titled text ↔ Text.stripChars text.toList ≠ [] := by
  rw [Ne, Text.stripChars_eq_nil_iff]
  simp [Titled]

theorem toList_quoted (inside : String) :
    ("==" ++ inside ++ "==").toList =
      ['=', '='] ++ (inside.toList ++ ['=', '=']) := by
  rw [String.toList_append, String.toList_append, List.append_assoc]
  rfl

theorem oneLine_of_quoted
    (oneLine : '\n' ∉ ("==" ++ inside ++ "==").toList) :
    '\n' ∉ inside.toList := by
  rw [toList_quoted] at oneLine
  exact fun member => oneLine (by simp [member])

theorem songHeader?_quoted (inside : String) :
    songHeader? ("==" ++ inside ++ "==") =
      (titles (inside.toList ++ ['=', '='])).head?.map String.ofList := by
  rw [songHeader?_eq, toList_quoted, Matching.literal_append,
    List.flatMap_singleton]

theorem songHeader?_of_titled
    (oneLine : '\n' ∉ inside.toList)
    (titled : Titled inside) :
    songHeader? ("==" ++ inside ++ "==") = some (Text.strip inside) := by
  rw [songHeader?_quoted, head?_titles oneLine (titled_iff.mp titled)]
  rfl

theorem songHeader?_of_blank
    (oneLine : '\n' ∉ inside.toList)
    (nonempty : inside ≠ "")
    (blank : ∀ char ∈ inside.toList, Text.isSpace char = true) :
    ∃ last, Text.isSpace last = true ∧
      songHeader? ("==" ++ inside ++ "==") = some (String.ofList [last]) := by
  obtain ⟨blanks, last, whole⟩ :=
    (List.eq_nil_or_concat inside.toList).resolve_left
      (mt String.toList_eq_nil_iff.mp nonempty)
  rw [List.concat_eq_append] at whole
  rw [whole] at oneLine blank
  refine ⟨last, blank last (by simp), ?_⟩
  rw [songHeader?_quoted, whole, head?_titles_of_blank blank]
  · rfl
  · rintro rfl
    simp at oneLine

theorem exists_inside_of_songHeader?
    (oneLine : '\n' ∉ name.toList)
    (header : songHeader? name = some title) :
    ∃ inside, inside ≠ "" ∧ name = "==" ++ inside ++ "==" := by
  rw [songHeader?_eq, Option.map_eq_some_iff] at header
  obtain ⟨captured, found, _⟩ := header
  obtain ⟨opened, opens, member⟩ :=
    List.mem_flatMap.mp (List.mem_of_head? found)
  have whole := Matching.mem_literal.mp opens
  rw [whole] at oneLine
  obtain ⟨inner, nonempty, rfl⟩ := exists_inner_of_mem_titles
    (fun inside => oneLine (List.mem_append_right _ inside)) member
  refine ⟨String.ofList inner, ?_, ?_⟩
  · exact mt String.ofList_eq_empty_iff.mp nonempty
  · rw [← String.toList_inj, toList_quoted, whole, String.toList_ofList]

/-- Every header but a blank one is read by its form. -/
theorem songHeader?_eq_some_iff_isHeaderOf
    (oneLine : '\n' ∉ name.toList)
    (notBlank : ¬BlankHeader name) :
    songHeader? name = some title ↔ IsHeaderOf name title := by
  constructor
  · intro header
    obtain ⟨inside, nonempty, rfl⟩ := exists_inside_of_songHeader? oneLine header
    have titled : Titled inside := by
      rw [titled_iff, Ne, Text.stripChars_eq_nil_iff]
      exact fun blank => notBlank ⟨inside, rfl, nonempty, blank⟩
    rw [songHeader?_of_titled (oneLine_of_quoted oneLine) titled] at header
    exact ⟨inside, rfl, titled, (Option.some.inj header).symm⟩
  · rintro ⟨inside, rfl, titled, rfl⟩
    exact songHeader?_of_titled (oneLine_of_quoted oneLine) titled

/-- The title of a header is never blank. -/
theorem titled_of_isHeaderOf
    (header : IsHeaderOf name title) :
    Titled title := by
  obtain ⟨inside, _, titled, rfl⟩ := header
  obtain ⟨first, rest, left⟩ :=
    List.exists_cons_of_ne_nil (titled_iff.mp titled)
  refine ⟨first, ?_, Text.isSpace_head_stripChars left⟩
  simp [Text.strip, left]

theorem quoted_title (title : String) :
    "== " ++ title ++ " ==" = "==" ++ (" " ++ title ++ " ") ++ "==" := by
  rw [← String.toList_inj]
  simp

/-- A header has no blanks around it. -/
theorem strip_quoted (inside : String) :
    Text.strip ("==" ++ inside ++ "==") = "==" ++ inside ++ "==" := by
  have equals : Text.isSpace '=' = false := by decide
  have kept := Text.stripChars_eq_self equals equals
    ('=' :: (inside.toList ++ ['=']))
  rw [Text.strip, ← String.toList_inj, String.toList_ofList, toList_quoted]
  simpa using kept

/-- A trimmed title between double equals and single blanks is given back. -/
theorem songHeader?_of_trimmed
    (oneLine : '\n' ∉ title.toList)
    (nonempty : title ≠ "")
    (trimmed : Text.strip title = title) :
    songHeader? ("== " ++ title ++ " ==") = some title := by
  have inside : (" " ++ title ++ " ").toList =
      [' '] ++ (title.toList ++ [' ']) := by
    rw [String.toList_append, String.toList_append, List.append_assoc]
    rfl
  have blank : ∀ char ∈ [' '], Text.isSpace char = true :=
    List.all_eq_true.mp (by decide)
  have same : Text.strip (" " ++ title ++ " ") = title := by
    rw [Text.strip, inside, Text.stripChars_append blank blank, ← Text.strip,
      trimmed]
  have titled : Titled (" " ++ title ++ " ") := by
    rw [titled_iff]
    intro nothing
    rw [← same, Text.strip, nothing] at nonempty
    exact nonempty rfl
  rw [quoted_title, songHeader?_of_titled _ titled, same]
  rw [inside]
  simpa using oneLine

/-! ## How songs open -/

/-- How a song opens: with the name and the index of its first section. -/
structure Opening where
  title : String
  position : ℚ
  first : Option (String × Nat)
  deriving DecidableEq

def openingOf (song : Song) : Opening where
  title := song.name
  position := song.position
  first := song.sections.head?.map fun item => (item.name, item.cueIndex)

/-- The opening of the song that a cue starts after so many others. -/
def opening?
    (index : Dict (String × ℚ) Nat)
    (count : Nat)
    (cue : CuePoint) : Option Opening :=
  let cueIndex := (index.get? (markerKey cue)).getD 0
  match songHeader? (Text.strip cue.name) with
  | some title => some ⟨title, cue.position, some ("Start", cueIndex)⟩
  | none =>
      if isSongStart (Text.strip cue.name) then
        some ⟨"Song " ++ toString (count + 1), cue.position,
          some (Text.strip cue.name, cueIndex)⟩
      else none

/-- The openings of the songs that cues start. -/
def openings (index : Dict (String × ℚ) Nat) (cues : List CuePoint) :
    List Opening :=
  cues.foldl
    (fun done cue => done ++ (opening? index done.length cue).toList) []

variable {index : Dict (String × ℚ) Nat} {songs : List Song}
  {cuePoints cues : List CuePoint} {cue : CuePoint}

theorem cueIndex_of_opening?
    {count : Nat} {entry : Opening}
    (opens : opening? index count cue = some entry) :
    entry.first.map Prod.snd =
      some ((index.get? (markerKey cue)).getD 0) := by
  simp only [opening?] at opens
  split at opens
  · obtain rfl := Option.some.inj opens
    rfl
  · split at opens
    · obtain rfl := Option.some.inj opens
      rfl
    · cases opens

theorem openings_append_singleton (early : List CuePoint) (last : CuePoint) :
    openings index (early ++ [last]) = openings index early ++
      (opening? index (openings index early).length last).toList := by
  rw [openings, List.foldl_append]
  rfl

theorem BuiltFrom.sections_ne_nil
    {done : List CuePoint}
    (built : BuiltFrom songs done) :
    ∀ song ∈ songs, song.sections ≠ [] := by
  obtain ⟨groups, whole, all⟩ := built
  clear whole
  induction all with
  | nil => simp
  | cons made _ inductionHypothesis =>
      refine List.forall_mem_cons.mpr ⟨?_, inductionHypothesis⟩
      obtain ⟨first, rest, rfl, _⟩ := made.opens
      intro none
      have shows' := made.shows
      rw [none] at shows'
      cases shows'

/-- A further section does not change how songs open. -/
theorem map_openingOf_addSection
    (nonempty : ∀ song ∈ songs, song.sections ≠ [])
    (added : Section) :
    (addSection songs added).map openingOf = songs.map openingOf := by
  cases songs using List.reverseRecOn with
  | nil => rfl
  | append_singleton early last _ =>
      have kept : last.sections ≠ [] :=
        nonempty last (List.mem_append_right _ List.mem_cons_self)
      obtain ⟨first, others, sections⟩ := List.exists_cons_of_ne_nil kept
      simp [addSection, openingOf, sections]

theorem map_openingOf_addCue
    (nonempty : ∀ song ∈ songs, song.sections ≠ [])
    (cue : CuePoint) :
    (addCue index songs cue).map openingOf =
      songs.map openingOf ++ (opening? index songs.length cue).toList := by
  simp only [addCue, opening?]
  cases songHeader? (Text.strip cue.name) with
  | some title => simp [openingOf, markerKey]
  | none =>
      simp only
      split
      · simp [openingOf, markerKey]
      · simp [map_openingOf_addSection nonempty]

theorem map_openingOf_foldl_addCue (cues : List CuePoint) :
    (cues.foldl (addCue index) []).map openingOf = openings index cues := by
  induction cues using List.reverseRecOn with
  | nil => rfl
  | append_singleton early last inductionHypothesis =>
      have count := congrArg List.length inductionHypothesis
      rw [List.length_map] at count
      rw [List.foldl_append, List.foldl_cons, List.foldl_nil,
        map_openingOf_addCue (builtFrom_foldl early).sections_ne_nil,
        inductionHypothesis, count, openings_append_singleton]

theorem map_openingOf_annotate (songs : List Song) :
    (annotateSectionLengths songs).map openingOf = songs.map openingOf := by
  induction songs with
  | nil => rfl
  | cons song rest inductionHypothesis =>
      have first : ∀ (sections : List Section) (next : Option ℚ),
          ((annotateSections sections next).head?.map fun item =>
            (item.name, item.cueIndex)) =
          sections.head?.map fun item => (item.name, item.cueIndex) := by
        intro sections next
        cases sections <;> rfl
      rw [annotateSectionLengths, List.map_cons, List.map_cons,
        inductionHypothesis]
      simp only [openingOf, first]

/-- The songs of the set open, in order, as the sorted cues open them. -/
theorem map_openingOf_parseMarkers (cuePoints : List CuePoint) :
    (parseMarkers cuePoints).map openingOf =
      openings (originalIndex cuePoints) (sortedBy sortKey cuePoints) := by
  rw [parseMarkers, map_openingOf_annotate, map_openingOf_foldl_addCue]

theorem exists_of_mem_openings
    {entry : Opening}
    (member : entry ∈ openings index cues) :
    ∃ cue ∈ cues, ∃ count, opening? index count cue = some entry := by
  induction cues using List.reverseRecOn with
  | nil => cases member
  | append_singleton early last inductionHypothesis =>
      rw [openings_append_singleton, List.mem_append] at member
      rcases member with earlier | here
      · obtain ⟨cue, inEarly, opens⟩ := inductionHypothesis earlier
        exact ⟨cue, List.mem_append_left _ inEarly, opens⟩
      · exact ⟨last, List.mem_append_right _ List.mem_cons_self, _,
          Option.mem_toList.mp here⟩

/-- A header opens a song wherever it comes. -/
theorem mem_openings_of_songHeader?
    (header : songHeader? (Text.strip cue.name) = some title)
    (member : cue ∈ cues) :
    ⟨title, cue.position,
        some ("Start", (index.get? (markerKey cue)).getD 0)⟩ ∈
      openings index cues := by
  induction cues using List.reverseRecOn with
  | nil => cases member
  | append_singleton early last inductionHypothesis =>
      rw [openings_append_singleton, List.mem_append]
      rcases List.mem_append.mp member with earlier | here
      · exact Or.inl (inductionHypothesis earlier)
      · obtain rfl := List.mem_singleton.mp here
        refine Or.inr (Option.mem_toList.mpr ?_)
        simp only [opening?, header]

/-! ## Headers in a set -/

/-- The song is opened by the marker: it starts there, and its first section
leads to the marker. -/
structure OpenedBy
    (cuePoints : List CuePoint)
    (cue : CuePoint)
    (song : Song) : Prop where
  position : song.position = cue.position
  leads : ∃ first others, song.sections = first :: others ∧
    ∃ other, cuePoints[first.cueIndex]? = some other ∧
      markerKey other = markerKey cue

/-- A named song is opened by the marker: its first section is a "Start", and
not the marker itself, as in an unnamed song. -/
def OpensNamed
    (cuePoints : List CuePoint)
    (cue : CuePoint)
    (title : String) : Prop :=
  Text.strip cue.name ≠ "Start" ∧
    ∃ song ∈ parseMarkers cuePoints,
      OpenedBy cuePoints cue song ∧ song.name = title ∧
        song.sections.head?.map Section.name = some "Start"

/-- A marker with that name has opened the song in the loop. -/
theorem exists_opener
    {song : Song}
    (inTree : song ∈ parseMarkers cuePoints)
    (opened : OpenedBy cuePoints cue song) :
    ∃ opener count, Text.strip opener.name = Text.strip cue.name ∧
      opening? (originalIndex cuePoints) count opener =
        some (openingOf song) := by
  have opens := List.mem_map_of_mem (f := openingOf) inTree
  rw [map_openingOf_parseMarkers] at opens
  obtain ⟨opener, sorted, count, opens⟩ := exists_of_mem_openings opens
  obtain ⟨cueIndex, found, marker, there, key⟩ := exists_cueIndex sorted
  obtain ⟨first, others, sections, other, listed, same⟩ := opened.leads
  have index := cueIndex_of_opening? opens
  rw [found, Option.getD_some, openingOf, sections] at index
  obtain rfl : first.cueIndex = cueIndex := Option.some.inj index
  obtain rfl := Option.some.inj (listed.symm.trans there)
  exact ⟨opener, count, (Prod.mk.inj (key.symm.trans same)).1, opens⟩

/-- A named song is opened by a marker exactly when the pattern matches. -/
theorem opensNamed_iff
    (member : cue ∈ cuePoints) :
    OpensNamed cuePoints cue title ↔
      songHeader? (Text.strip cue.name) = some title := by
  constructor
  · rintro ⟨notStart, song, inTree, opened, rfl, start⟩
    obtain ⟨opener, count, name, opens⟩ := exists_opener inTree opened
    rw [← name] at notStart ⊢
    simp only [opening?] at opens
    cases header : songHeader? (Text.strip opener.name) with
    | some title =>
        simp only [header, Option.some.injEq] at opens
        exact congrArg (some ∘ Opening.title) opens
    | none =>
        simp only [header] at opens
        split at opens
        · have first := congrArg Opening.first (Option.some.inj opens)
          have keyword := congrArg (Option.map Prod.fst) first
          rw [openingOf, Option.map_map] at keyword
          exact absurd (Option.some.inj (keyword.trans start)) notStart
        · cases opens
  · intro header
    have sorted : cue ∈ sortedBy sortKey cuePoints := mem_sortedBy.mpr member
    obtain ⟨cueIndex, found, other, listed, same⟩ := exists_cueIndex sorted
    have opens : _ ∈ openings (originalIndex cuePoints) _ :=
      mem_openings_of_songHeader? header sorted
    rw [← map_openingOf_parseMarkers, found, Option.getD_some] at opens
    obtain ⟨song, inTree, opened⟩ := List.mem_map.mp opens
    simp only [openingOf, Opening.mk.injEq, Option.map_eq_some_iff,
      Prod.mk.injEq] at opened
    obtain ⟨name, position, first, heads, start, rfl⟩ := opened
    obtain ⟨others, sections⟩ := List.head?_eq_some_iff.mp heads
    refine ⟨?_, song, inTree,
      ⟨position, first, others, sections, other, listed, same⟩, name, ?_⟩
    · intro keyword
      have noHeader : songHeader? "Start" = none := by decide +kernel
      rw [keyword, noHeader] at header
      cases header
    · rw [heads, Option.map_some, start]

/-- The marker is read as its form says, and does not open a song without a
name. -/
structure HeaderRead (cuePoints : List CuePoint) (cue : CuePoint) : Prop where
  opens : ∀ title, OpensNamed cuePoints cue title ↔
    IsHeaderOf (Text.strip cue.name) title
  titled : ∀ song ∈ parseMarkers cuePoints, OpenedBy cuePoints cue song →
    Titled song.name

/-- A blank header opens a song with a blank for a name. -/
theorem not_headerRead_of_blankHeader
    (member : cue ∈ cuePoints)
    (oneLine : '\n' ∉ (Text.strip cue.name).toList)
    (blankHeader : BlankHeader (Text.strip cue.name)) :
    ¬HeaderRead cuePoints cue := by
  intro read
  obtain ⟨inside, name, nonempty, blank⟩ := blankHeader
  obtain ⟨last, isBlank, header⟩ :=
    songHeader?_of_blank (oneLine_of_quoted (name ▸ oneLine)) nonempty blank
  rw [← name] at header
  obtain ⟨_, song, inTree, opened, own, _⟩ := (opensNamed_iff member).mpr header
  obtain ⟨char, inTitle, kept⟩ := read.titled song inTree opened
  rw [own, String.toList_ofList] at inTitle
  obtain rfl := List.mem_singleton.mp inTitle
  rw [isBlank] at kept
  cases kept

theorem headerRead_of_not_blankHeader
    (member : cue ∈ cuePoints)
    (oneLine : '\n' ∉ (Text.strip cue.name).toList)
    (notBlank : ¬BlankHeader (Text.strip cue.name)) :
    HeaderRead cuePoints cue where
  opens := fun _ => (opensNamed_iff member).trans
    (songHeader?_eq_some_iff_isHeaderOf oneLine notBlank)
  titled := by
    intro song inTree opened
    obtain ⟨opener, count, name, opens⟩ := exists_opener inTree opened
    simp only [opening?, name] at opens
    split at opens
    · rename_i title header
      have own := congrArg Opening.title (Option.some.inj opens)
      rw [← show title = song.name from own]
      exact titled_of_isHeaderOf
        ((songHeader?_eq_some_iff_isHeaderOf oneLine notBlank).mp header)
    · split at opens
      · have own := congrArg Opening.title (Option.some.inj opens)
        rw [← show "Song " ++ toString (count + 1) = song.name from own]
        exact ⟨'S', by simp, by decide⟩
      · cases opens

/-- A header is read as its form says exactly when it is not a blank one; a
trimmed title between double equals is always given back. -/
theorem headerRead_iff_not_blankHeader
    (member : cue ∈ cuePoints)
    (oneLine : '\n' ∉ (Text.strip cue.name).toList) :
    (HeaderRead cuePoints cue ↔ ¬BlankHeader (Text.strip cue.name)) ∧
      ∀ title, cue.name = "== " ++ title ++ " ==" → title ≠ "" →
        Text.strip title = title → OpensNamed cuePoints cue title := by
  refine ⟨⟨?_, headerRead_of_not_blankHeader member oneLine⟩, ?_⟩
  · exact fun read blankHeader =>
      not_headerRead_of_blankHeader member oneLine blankHeader read
  · intro title name nonempty trimmed
    have stripped : Text.strip cue.name = "== " ++ title ++ " ==" := by
      rw [name, quoted_title, strip_quoted]
    rw [stripped] at oneLine
    have titleLine : '\n' ∉ title.toList := fun inTitle =>
      oneLine (by simp [inTitle])
    rw [opensNamed_iff member, stripped]
    exact songHeader?_of_trimmed titleLine nonempty trimmed

/-- A title that has double equals itself, after another marker. -/
theorem headerRead_iff_not_blankHeader_equals :
    HeaderRead [⟨"Intro", 4⟩, ⟨"== == 5 == ==", 0⟩] ⟨"== == 5 == ==", 0⟩ ∧
      OpensNamed [⟨"Intro", 4⟩, ⟨"== == 5 == ==", 0⟩] ⟨"== == 5 == ==", 0⟩
        "== 5 ==" := by
  have oneLine : '\n' ∉ (Text.strip "== == 5 == ==").toList := by
    decide +kernel
  have notBlank : ¬BlankHeader (Text.strip "== == 5 == ==") := by
    rintro ⟨inside, name, _, blank⟩
    have digit : '5' ∈ (Text.strip "== == 5 == ==").toList := by
      decide +kernel
    rw [name, toList_quoted] at digit
    exact absurd (blank '5' (by simpa using digit)) (by decide)
  have member : (⟨"== == 5 == ==", 0⟩ : CuePoint) ∈
      [⟨"Intro", 4⟩, ⟨"== == 5 == ==", 0⟩] := by
    decide +kernel
  obtain ⟨read, opens⟩ := headerRead_iff_not_blankHeader member oneLine
  exact ⟨read.mpr notBlank, opens "== 5 ==" rfl (by decide)
    (by decide +kernel)⟩

/-- Double equals around a single blank: the blank is the name of the song. -/
theorem not_headerRead_of_blankBetweenEquals :
    parseMarkers [⟨"== ==", 0⟩] =
        [⟨" ", 0, [⟨"Start", 0, 0, false, none⟩]⟩] ∧
      ¬∀ cuePoints, ∀ cue ∈ cuePoints,
        '\n' ∉ (Text.strip cue.name).toList → HeaderRead cuePoints cue := by
  refine ⟨by decide +kernel, fun always => ?_⟩
  have member : (⟨"== ==", 0⟩ : CuePoint) ∈ [⟨"== ==", 0⟩] :=
    List.mem_cons_self
  have oneLine : '\n' ∉ (Text.strip "== ==").toList := by decide +kernel
  have blankHeader : BlankHeader (Text.strip "== ==") :=
    ⟨" ", by decide +kernel, by decide +kernel,
      List.all_eq_true.mp (by decide +kernel)⟩
  exact not_headerRead_of_blankHeader member oneLine blankHeader
    (always _ _ member oneLine)

end Parser
end AbletonTracks
