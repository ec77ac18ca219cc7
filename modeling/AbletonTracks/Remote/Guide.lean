import AbletonTracks.Bridge.Analyzer
import AbletonTracks.Parser.Headed
import AbletonTracks.Parser.Headers
import AbletonTracks.Remote.Bodies
import AbletonTracks.Remote.Replacing
import AbletonTracks.Remote.Taps

/-!
# From a guide track to the songs on show

`analyze_guide.command` analyzes a guide track, puts a song header in front of
what was heard, and posts it to the bridge.  Ableton replaces its cues, and the
bridge parses the cues that Ableton then has.
-/

namespace AbletonTracks

open Library

/-! ## The command -/

namespace AnalyzeGuideCommand

/-- `os.path.basename`. -/
def basename (path : String) : String :=
  String.ofList (path.toList.rtakeWhile (· ≠ '/'))

/-- `os.path.dirname`: the slash goes, unless there are only slashes. -/
def dirname (path : String) : String :=
  let head := path.toList.rdropWhile (· ≠ '/')
  String.ofList
    (if head.all (· = '/') then head else head.rdropWhile (· = '/'))

/-- `song_name`. -/
def songName (audioPath : String) : String :=
  let folder := basename (dirname audioPath)
  if folder = "" then "Song" else folder

/-- The name of the header cue. -/
def headerName (audioPath : String) : String :=
  "== " ++ songName audioPath ++ " =="

/-- The tempo that is typed, or the one that was detected. -/
def acceptedBpm (typed : String) (detected : ℚ) : Floating :=
  if Text.strip typed = "" then .finite detected
  else (Text.float? (Text.strip typed)).getD (.finite detected)

/-- A finite number of the payload. -/
def number (value : ℚ) : Json := .number (.float (.finite value))

/-- The header in front of the sections. -/
def headerJson (audioPath : String) : Json :=
  .object [("name", .string (headerName audioPath)), ("time", number 0)]

/-- A section of the payload. -/
def sectionJson (item : AnalysisSection) : Json :=
  .object [("name", .string item.name), ("time", number item.time),
    ("beat", number item.beat)]

/-- The payload. -/
def payload
    (audioPath trackName : String)
    (clipStartBeat : ℚ)
    (bpm : Floating)
    (sections : List AnalysisSection) : List (String × Json) :=
  [("bpm", .number (.float bpm)),
    ("sections",
      .array (headerJson audioPath :: sections.map sectionJson)),
    ("track_name", .string trackName),
    ("clip_start_beat", number clipStartBeat)]

/-- What the command posts, unless it exits because nothing was heard. -/
def run
    (isWord : Char → Bool)
    (audioPath trackName typed : String)
    (clipStartBeat tempo : ℚ)
    (segments : List Segment) : Option (List (String × Json)) :=
  let result := Analyzer.analyzeGuide isWord tempo segments
  if result.sections = [] then none
  else some (payload audioPath trackName clipStartBeat
    (acceptedBpm typed result.bpm) result.sections)

example : songName "/Music/Amazing Grace/Guide.wav" = "Amazing Grace" := by
  decide +kernel

/-! ## What is sent -/

variable {audioPath trackName : String} {clipStartBeat bpm : ℚ}
  {sections : List AnalysisSection}

/-- The header as a section, at the time 0. -/
def headed (audioPath : String) (sections : List AnalysisSection) :
    List AnalysisSection :=
  ⟨headerName audioPath, 0, 0⟩ :: sections

theorem mapM_sectionParams?_payload :
    (headerJson audioPath :: sections.map sectionJson).mapM
        AnalysisRequest.sectionParams? =
      some ((headed audioPath sections).map fun item =>
        [.string item.name, number item.time]) := by
  have rest : (sections.map sectionJson).mapM AnalysisRequest.sectionParams? =
      some (sections.map fun item =>
        [.string item.name, number item.time]) := by
    induction sections with
    | nil => rfl
    | cons item others inductionHypothesis =>
        rw [List.map_cons, List.mapM_cons, inductionHypothesis]
        rfl
  rw [List.mapM_cons, rest]
  rfl

/-- The endpoint hands on what is posted, unless the tempo is zero. -/
theorem applyAnalysisEndpoint_payload :
    applyAnalysisEndpoint (.value (.object
        (payload audioPath trackName clipStartBeat (.finite bpm)
          sections))) =
      if bpm = 0 then (.missing, none)
      else (.ok (sections.length + 1), some ⟨number bpm,
        .array (headerJson audioPath :: sections.map sectionJson),
        .finite clipStartBeat⟩) := by
  have tempo : ClientMessage.get
      (payload audioPath trackName clipStartBeat (.finite bpm) sections)
        "bpm" .null = number bpm := rfl
  have listed : ClientMessage.get
      (payload audioPath trackName clipStartBeat (.finite bpm) sections)
        "sections" (.array []) =
      .array (headerJson audioPath :: sections.map sectionJson) := rfl
  have start : clipStartBeatField
      (payload audioPath trackName clipStartBeat (.finite bpm) sections) =
        number clipStartBeat := rfl
  simp only [applyAnalysisEndpoint, tempo, listed, start]
  by_cases zero : bpm = 0
  · simp [zero, number, Json.truth, Number.truth]
  · simp [zero, number, Json.truth, Number.truth, Json.float?, Number.float?,
      Json.length?]

/-- The bridge sends the tempo, the start of the clip, and every section with
its time. -/
theorem message?_of_payload
    {count : Nat} {request : AnalysisRequest}
    (answered : applyAnalysisEndpoint (.value (.object
      (payload audioPath trackName clipStartBeat (.finite bpm) sections))) =
        (.ok count, some request)) :
    request.message? = some (AbletonBridge.applyAnalysisMessage bpm
      (headed audioPath sections) clipStartBeat) := by
  have own : request = ⟨number bpm,
      .array (headerJson audioPath :: sections.map sectionJson),
      .finite clipStartBeat⟩ := by
    rw [applyAnalysisEndpoint_payload] at answered
    split at answered
    · simp at answered
    · exact (Option.some.inj (Prod.mk.inj answered).2).symm
  have params : [number bpm, number clipStartBeat] ++
      ((headed audioPath sections).map fun item =>
        [Json.string item.name, number item.time]).flatten =
      (AbletonBridge.applyAnalysisMessage bpm (headed audioPath sections)
        clipStartBeat).2.map OscValue.json := by
    simp [AbletonBridge.applyAnalysisMessage, OscValue.json, List.flatMap,
      Function.comp_def, number]
  have sent : request.params? = some ((AbletonBridge.applyAnalysisMessage bpm
      (headed audioPath sections) clipStartBeat).2.map OscValue.json) := by
    rw [← params, own]
    simp only [AnalysisRequest.params?, mapM_sectionParams?_payload]
    rfl
  simp only [AnalysisRequest.message?, sent, Option.bind_eq_bind,
    Option.bind_some, OscValue.mapM_ofJson?_json]
  rfl

end AnalyzeGuideCommand

/-! ## The cues of the song -/

/-- The markers that Ableton reads, each with its beat: the header at the start
of the clip, and the sections. -/
def guideMarkers
    (audioPath : String)
    (clipStartBeat bpm : ℚ)
    (sections : List AnalysisSection) : List (String × ℚ) :=
  packedPairs bpm clipStartBeat
    (AnalyzeGuideCommand.headed audioPath sections)

/-- The song of a title with its markers: the first is the header, and each of
the others a section of its own name. -/
def guideSong (title : String) (markers : List (String × ℚ)) : Song where
  name := title
  position := (markers.head?.map Prod.snd).getD 0
  sections := Parser.annotateSections
    (markers.zipIdx.map fun marker =>
      ⟨if marker.2 = 0 then "Start" else marker.1.1, marker.1.2, marker.2,
        false, none⟩) none

/-- Each marker lies behind the one before it. -/
def BeatsAscend (markers : List (String × ℚ)) : Prop :=
  markers.Pairwise fun early late => early.2 < late.2

instance (markers : List (String × ℚ)) : Decidable (BeatsAscend markers) :=
  inferInstanceAs (Decidable (List.Pairwise _ _))

/-- A marker as a cue point. -/
def markerCue (marker : String × ℚ) : CuePoint := ⟨marker.1, marker.2⟩

namespace LiveSong

variable {song : LiveSong} {markers : List (String × ℚ)} {bpm : ℚ}
  {reply : List OscArgument}

/-- The bridge decodes the cues that replaced the others. -/
theorem decodeCues_replaceCues
    (exact' : ∀ marker ∈ markers, toSingle marker.2 = marker.2)
    (distinct : song.DistinctTimes)
    (replied : List.Forall₂ OscValue.Arrives
      (song.replaceCues bpm markers).1.songGetCuePoints reply) :
    AbletonBridge.decodeCues reply =
      (song.replaceCues bpm markers).1.cuePoints.map LiveCue.decoded := by
  refine decodeCues_songGetCuePoints (carries_of_arrives ?_ replied)
  intro cue member
  obtain ⟨_, within⟩ := times_foldl_createCue
    (cuePoints_foldl_toggleCueAt distinct bpm) markers
  obtain ⟨marker, listed, same⟩ :=
    List.mem_map.mp (within (List.mem_map_of_mem member))
  exact same ▸ exact' marker listed

/-- A tree with a section for each marker, in their order, needs a cue for each
of them. -/
theorem beatsAscend_of_positions
    (distinct : song.DistinctTimes)
    (positions : (Parser.flat (Parser.parseMarkers
      ((song.replaceCues bpm markers).1.cuePoints.map
        LiveCue.decoded))).map Section.position = markers.map Prod.snd) :
    BeatsAscend markers := by
  generalize cues : (song.replaceCues bpm markers).1.cuePoints = cuePoints
    at positions
  obtain ⟨times, within⟩ := times_foldl_createCue
    (cuePoints_foldl_toggleCueAt distinct bpm) markers
  have replaced : (markers.foldl createCue (song.cuePoints.foldl
      (fun song cue => song.toggleCueAt cue.time)
        { song with tempo := bpm })).cuePoints = cuePoints := cues
  rw [replaced] at times within
  have enough : markers.length ≤ cuePoints.length := by
    have sections := Parser.length_flat_le (cuePoints.map LiveCue.decoded)
    rw [List.length_map] at sections
    have length := congrArg List.length positions
    rw [List.length_map, List.length_map] at length
    rwa [length] at sections
  have same := (times.subperm within).perm_of_length_le
    (by rw [List.length_map, List.length_map]; exact enough)
  have nodup : (markers.map Prod.snd).Nodup := same.nodup_iff.mp times
  have ordered := Parser.chronological_flat (cuePoints.map LiveCue.decoded)
  rw [Chronological, ← List.pairwise_map, positions] at ordered
  have ascend := ordered.and nodup
  rw [List.pairwise_map] at ascend
  exact ascend.imp fun both => lt_of_le_of_ne both.1 both.2

/-- Markers on different beats become the cues of the song. -/
theorem cuePoints_replaceCues
    (distinct : song.DistinctTimes)
    (apart : markers.Pairwise fun early late => 1 / 2 ≤ |early.2 - late.2|) :
    ((song.replaceCues bpm markers).1.cuePoints.map LiveCue.decoded) =
      markers.map markerCue := by
  have created := cuePoints_foldl_createCue
    (cuePoints_foldl_toggleCueAt distinct bpm) apart
  have replaced : (song.replaceCues bpm markers).1.cuePoints =
      markers.map fun marker => ⟨marker.1, marker.2⟩ := created
  rw [replaced, List.map_map]
  rfl

end LiveSong

/-! ## The names -/

/-- A marker of the name is a section of its name, and nothing else. -/
structure PlainName (name : String) : Prop where
  trimmed : Text.strip name = name
  noHeader : Parser.songHeader? name = none
  noStart : Parser.isSongStart name = false
  noLoop : Parser.isLoopSection name = false

instance (name : String) : Decidable (PlainName name) :=
  decidable_of_iff
    (Text.strip name = name ∧ Parser.songHeader? name = none ∧
      Parser.isSongStart name = false ∧ Parser.isLoopSection name = false)
    ⟨fun ⟨trimmed, noHeader, noStart, noLoop⟩ =>
      ⟨trimmed, noHeader, noStart, noLoop⟩,
      fun ⟨trimmed, noHeader, noStart, noLoop⟩ =>
        ⟨trimmed, noHeader, noStart, noLoop⟩⟩

theorem PlainName.starts {name : String} (plain : PlainName name) (beat : ℚ) :
    Parser.startsSong (markerCue (name, beat)) = false := by
  simp [Parser.startsSong, markerCue, plain.trimmed, plain.noHeader,
    plain.noStart]

/-- Every name of the analyzer is such a name. -/
theorem Analyzer.plain_sectionNames :
    ∀ name ∈ sectionNames, PlainName name := by
  have names : sectionNames.all (fun name => decide (PlainName name)) = true := by
    decide +kernel
  exact fun name member => of_decide_eq_true (List.all_eq_true.mp names _ member)

open AnalyzeGuideCommand in
/-- The parser reads the header as the name of the folder. -/
theorem songHeader?_headerName
    {audioPath : String}
    (titled : Parser.Titled (songName audioPath))
    (oneLine : '\n' ∉ (songName audioPath).toList) :
    Parser.songHeader? (Text.strip (headerName audioPath)) =
      some (Text.strip (songName audioPath)) := by
  rw [headerName]
  generalize songName audioPath = title at titled oneLine
  have inside : (" " ++ title ++ " ").toList =
      [' '] ++ (title.toList ++ [' ']) := by
    rw [String.toList_append, String.toList_append, List.append_assoc]
    rfl
  have blank : ∀ char ∈ [' '], Text.isSpace char = true :=
    List.all_eq_true.mp (by decide)
  have same : Text.strip (" " ++ title ++ " ") = Text.strip title := by
    rw [Text.strip, inside, Text.stripChars_append blank blank, ← Text.strip]
  rw [Parser.quoted_title, Parser.strip_quoted, Parser.songHeader?_of_titled,
    same]
  · rw [inside]
    simpa using oneLine
  · obtain ⟨char, member, solid⟩ := titled
    exact ⟨char, by rw [inside]; simp [member], solid⟩

/-- The song that the parser makes of the markers. -/
theorem headedSong_markerCue
    {name title : String} {start : ℚ} {rest : List (String × ℚ)}
    (read : Parser.songHeader? (Text.strip name) = some title)
    (plain : ∀ marker ∈ rest, PlainName marker.1) :
    Parser.headedSong title (markerCue (name, start)) (rest.map markerCue) =
      guideSong title ((name, start) :: rest) := by
  have header : Parser.placedSection (markerCue (name, start), 0) =
      ⟨"Start", start, 0, false, none⟩ := by
    simp [Parser.placedSection, markerCue, Parser.sectionName,
      Parser.startsSong, read]
  have others : ((rest.map markerCue).zipIdx 1).map Parser.placedSection =
      (rest.zipIdx 1).map fun marker =>
        ⟨if marker.2 = 0 then "Start" else marker.1.1, marker.1.2, marker.2,
          false, none⟩ := by
    rw [List.zipIdx_map, List.map_map]
    refine List.map_congr_left fun marker member => ?_
    obtain ⟨behind, _, listed⟩ := List.mem_zipIdx member
    have own := plain marker.1 (listed ▸ List.getElem_mem _)
    have later : marker.2 ≠ 0 := by omega
    simp [Parser.placedSection, markerCue, Parser.sectionName, own.trimmed,
      own.noHeader, own.noLoop, later]
  rw [Parser.headedSong, guideSong, List.zipIdx_cons, List.zipIdx_cons,
    List.map_cons, List.map_cons, header, others]
  rfl

/-! ## What is shown -/

variable {isWord : Char → Bool} {audioPath trackName typed : String}
  {clipStartBeat tempo bpm : ℚ} {segments : List Segment} {song : LiveSong}
  {fields : List (String × Json)} {count : Nat} {request : AnalysisRequest}
  {message : String × List OscValue} {args reply : List OscArgument}

/-- The markers of a guide track: what is heard on it, at a tempo that was
accepted. -/
def guideTrackMarkers
    (isWord : Char → Bool)
    (audioPath : String)
    (clipStartBeat bpm tempo : ℚ)
    (segments : List Segment) : List (String × ℚ) :=
  guideMarkers audioPath clipStartBeat bpm
    (Analyzer.analyzeGuide isWord tempo segments).sections

/-- What the handler does with the message of the command. -/
theorem songReplaceAllCues_of_run
    (song : LiveSong)
    (accepted : AnalyzeGuideCommand.acceptedBpm typed
      (Analyzer.analyzeGuide isWord tempo segments).bpm = .finite bpm)
    (posted : AnalyzeGuideCommand.run isWord audioPath trackName typed
      clipStartBeat tempo segments = some fields)
    (answered : applyAnalysisEndpoint (.value (.object fields)) =
      (.ok count, some request))
    (sent : request.message? = some message)
    (arrived : List.Forall₂ OscValue.Arrives message.2 args) :
    song.songReplaceAllCues args = Prod.map id some (song.replaceCues
      (toSingle bpm)
      (guideTrackMarkers isWord audioPath clipStartBeat bpm tempo
        segments)) := by
  unfold AnalyzeGuideCommand.run at posted
  dsimp only at posted
  rw [accepted] at posted
  split at posted
  · cases posted
  · obtain rfl := Option.some.inj posted
    rw [AnalyzeGuideCommand.message?_of_payload answered] at sent
    obtain rfl := Option.some.inj sent
    exact LiveSong.songReplaceAllCues_of_arrives arrived
      (List.cons_ne_nil _ _)

theorem exists_guideTrackMarkers
    (isWord : Char → Bool)
    (audioPath : String)
    (clipStartBeat bpm tempo : ℚ)
    (segments : List Segment) :
    ∃ start rest, guideTrackMarkers isWord audioPath clipStartBeat bpm tempo
        segments =
          (AnalyzeGuideCommand.headerName audioPath, start) :: rest ∧
      ∀ marker ∈ rest, PlainName marker.1 := by
  refine ⟨_, _, rfl, ?_⟩
  rw [List.forall_mem_map, Analyzer.analyzeGuide, List.forall_mem_map]
  intro cue member
  have heard := Analyzer.transcribeSections_spec isWord segments
  exact Analyzer.plain_sectionNames _ (heard.2.1 cue member)

theorem apart_guideTrackMarkers
    (ascend : BeatsAscend (guideTrackMarkers isWord audioPath clipStartBeat
      bpm tempo segments)) :
    (guideTrackMarkers isWord audioPath clipStartBeat bpm tempo
      segments).Pairwise fun early late => 1 / 2 ≤ |early.2 - late.2| := by
  refine ascend.imp_of_mem ?_
  intro early late earlyMember lateMember before
  obtain ⟨_, _, rfl⟩ := List.mem_map.mp earlyMember
  obtain ⟨_, _, rfl⟩ := List.mem_map.mp lateMember
  exact half_le_of_add_ne before.ne

theorem positions_guideSong (title : String) (markers : List (String × ℚ)) :
    (Parser.flat [guideSong title markers]).map Section.position =
      markers.map Prod.snd := by
  have zipped : markers.zipIdx.map (Prod.snd ∘ Prod.fst) =
      markers.map Prod.snd := by
    rw [← List.map_map, List.zipIdx_map_fst]
  rw [Parser.flat, List.flatMap_singleton, guideSong,
    Parser.map_position_annotateSections, List.map_map]
  exact zipped

/-- The bridge shows one song with the name of the folder, and what was heard
as its sections in this order, exactly when every marker comes to lie behind
the one before it: two on one beat take each other away. -/
theorem parseMarkers_guide_iff
    (distinct : song.DistinctTimes)
    (titled : Parser.Titled (AnalyzeGuideCommand.songName audioPath))
    (oneLine : '\n' ∉ (AnalyzeGuideCommand.songName audioPath).toList)
    (accepted : AnalyzeGuideCommand.acceptedBpm typed
      (Analyzer.analyzeGuide isWord tempo segments).bpm = .finite bpm)
    (posted : AnalyzeGuideCommand.run isWord audioPath trackName typed
      clipStartBeat tempo segments = some fields)
    (answered : applyAnalysisEndpoint (.value (.object fields)) =
      (.ok count, some request))
    (sent : request.message? = some message)
    (arrived : List.Forall₂ OscValue.Arrives message.2 args)
    (packs : ∀ marker ∈ guideTrackMarkers isWord audioPath clipStartBeat bpm
      tempo segments, toSingle marker.2 = marker.2)
    (replied : List.Forall₂ OscValue.Arrives
      (song.songReplaceAllCues args).1.songGetCuePoints reply) :
    Parser.parseMarkers (AbletonBridge.decodeCues reply) =
        [guideSong (Text.strip (AnalyzeGuideCommand.songName audioPath))
          (guideTrackMarkers isWord audioPath clipStartBeat bpm tempo
            segments)] ↔
      BeatsAscend (guideTrackMarkers isWord audioPath clipStartBeat bpm
        tempo segments) := by
  rw [songReplaceAllCues_of_run song accepted posted answered sent arrived]
    at replied
  dsimp only [Prod.map, id] at replied
  rw [LiveSong.decodeCues_replaceCues packs distinct replied]
  constructor
  · intro shown
    have positions := positions_guideSong
      (Text.strip (AnalyzeGuideCommand.songName audioPath))
      (guideTrackMarkers isWord audioPath clipStartBeat bpm tempo segments)
    rw [← shown] at positions
    exact LiveSong.beatsAscend_of_positions distinct positions
  · intro ascend
    have apart := apart_guideTrackMarkers ascend
    rw [LiveSong.cuePoints_replaceCues distinct apart]
    obtain ⟨start, rest, whole, plain⟩ := exists_guideTrackMarkers isWord
      audioPath clipStartBeat bpm tempo segments
    rw [whole] at ascend ⊢
    have read := songHeader?_headerName titled oneLine
    rw [← headedSong_markerCue read plain]
    refine Parser.parseMarkers_headed read ?_ ?_
    · rw [List.forall_mem_map]
      exact fun marker member => (plain marker member).starts marker.2
    · have behind : Parser.Ascending (((AnalyzeGuideCommand.headerName
          audioPath, start) :: rest).map markerCue) :=
        List.pairwise_map.mpr ascend
      exact behind

/-- One section, eight seconds into the guide track of a song. -/
theorem parseMarkers_guide_iff_verse :
    ∃ fields request message args reply,
      AnalyzeGuideCommand.run Char.isAlphanum "/Music/Amazing Grace/Guide.wav"
        "Guide" "" 0 120 [⟨" Verse 1, all in.", 8⟩] = some fields ∧
      applyAnalysisEndpoint (.value (.object fields)) =
        (.ok 2, some request) ∧
      request.message? = some message ∧
      List.Forall₂ OscValue.Arrives message.2 args ∧
      List.Forall₂ OscValue.Arrives
        (LiveSong.songReplaceAllCues {} args).1.songGetCuePoints reply ∧
      Parser.parseMarkers (AbletonBridge.decodeCues reply) =
        [⟨"Amazing Grace", 0, [⟨"Start", 0, 0, false, some 16⟩,
          ⟨"Verse 1", 16, 1, false, none⟩]⟩] := by
  have heard : Analyzer.analyzeGuide Char.isAlphanum 120
      [⟨" Verse 1, all in.", 8⟩] = ⟨120, [⟨"Verse 1", 8, 16⟩]⟩ := by
    decide +kernel
  have typed : AnalyzeGuideCommand.acceptedBpm "" 120 = .finite 120 := by
    decide +kernel
  have accepted : AnalyzeGuideCommand.acceptedBpm ""
      (Analyzer.analyzeGuide Char.isAlphanum 120
        [⟨" Verse 1, all in.", 8⟩]).bpm = .finite 120 := by
    rw [heard]
    exact typed
  have posted : AnalyzeGuideCommand.run Char.isAlphanum
      "/Music/Amazing Grace/Guide.wav" "Guide" "" 0 120
      [⟨" Verse 1, all in.", 8⟩] = some (AnalyzeGuideCommand.payload
        "/Music/Amazing Grace/Guide.wav" "Guide" 0 (.finite 120)
        [⟨"Verse 1", 8, 16⟩]) := by
    simp [AnalyzeGuideCommand.run, heard, typed]
  have answered := @AnalyzeGuideCommand.applyAnalysisEndpoint_payload
    "/Music/Amazing Grace/Guide.wav" "Guide" 0 120 [⟨"Verse 1", 8, 16⟩]
  rw [if_neg (by norm_num)] at answered
  have sent := AnalyzeGuideCommand.message?_of_payload answered
  obtain ⟨args, arrived⟩ := OscValue.exists_arrives
    (show ∀ value ∈ (AbletonBridge.applyAnalysisMessage 120
      (AnalyzeGuideCommand.headed "/Music/Amazing Grace/Guide.wav"
        [⟨"Verse 1", 8, 16⟩]) 0).2, value.Packs by decide +kernel)
  have markers : guideTrackMarkers Char.isAlphanum
      "/Music/Amazing Grace/Guide.wav" 0 120 120
      [⟨" Verse 1, all in.", 8⟩] =
      [("== Amazing Grace ==", 0), ("Verse 1", 16)] := by
    decide +kernel
  have applied := songReplaceAllCues_of_run {} accepted posted answered sent
    arrived
  have tempo : toSingle 120 = 120 := by decide +kernel
  rw [markers, tempo] at applied
  obtain ⟨reply, replied⟩ := OscValue.exists_arrives
    (show ∀ value ∈ (LiveSong.replaceCues {} 120
      [("== Amazing Grace ==", 0), ("Verse 1", 16)]).1.songGetCuePoints,
      value.Packs by decide +kernel)
  have replied : List.Forall₂ OscValue.Arrives
      (LiveSong.songReplaceAllCues {} args).1.songGetCuePoints reply := by
    rw [applied]
    exact replied
  refine ⟨_, _, _, args, reply, posted, answered, sent, arrived, replied, ?_⟩
  have title : Parser.Titled
      (AnalyzeGuideCommand.songName "/Music/Amazing Grace/Guide.wav") :=
    ⟨'A', by decide +kernel, by decide⟩
  rw [(parseMarkers_guide_iff (by decide +kernel) title (by decide +kernel)
    accepted posted answered sent arrived (by decide +kernel) replied).mpr
      (by decide +kernel), markers]
  decide +kernel

end AbletonTracks
