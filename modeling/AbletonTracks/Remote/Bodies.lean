import AbletonTracks.Remote.Analysis
import AbletonTracks.Server.Frames

/-!
# Bodies with an analysis

What is posted to `/apply_analysis` is read in three places.  The endpoint
looks at the tempo and whether there are sections, the bridge at the names and
the times, and the remote script at seconds only.  The documentation gives
each section a beat instead, which none of the three reads.
-/

namespace AbletonTracks

open Library

/-! ## The endpoint -/

/-- How the endpoint answers. -/
inductive ApplyAnswer
  /-- Status 400, "invalid JSON". -/
  | invalidJson
  /-- Status 400, "missing bpm or sections". -/
  | missing
  /-- It raises. -/
  | raises
  | ok (sectionCount : Nat)
  deriving DecidableEq

/-- What the endpoint hands to the bridge. -/
structure AnalysisRequest where
  bpm : Json
  sections : Json
  clipStartBeat : Floating

/-- `data.get("clip_start_beat", 0.0)`. -/
def clipStartBeatField (fields : List (String × Json)) : Json :=
  ClientMessage.get fields "clip_start_beat" (.number (.float (.finite 0)))

/-- `apply_analysis`, the endpoint. -/
def applyAnalysisEndpoint :
    TextFrame → ApplyAnswer × Option AnalysisRequest
  | .malformed | .refused => (.invalidJson, none)
  | .value (.object fields) =>
      let bpm := ClientMessage.get fields "bpm" .null
      let sections := ClientMessage.get fields "sections" (.array [])
      if !bpm.truth || !sections.truth then (.missing, none)
      else
        match (clipStartBeatField fields).float?, sections.length? with
        | some clipStartBeat, some count =>
            (.ok count, some ⟨bpm, sections, clipStartBeat⟩)
        | _, _ => (.raises, none)
  | .value _ => (.raises, none)

/-! ## The bridge -/

namespace AnalysisRequest

/-- The parameters of a section: its name, and its time or 0.0; `none` where
reading them raises. -/
def sectionParams? : Json → Option (List Json)
  | .object fields => do
      let name ← Json.field? fields "name"
      let time ← (ClientMessage.get fields "time"
        (.number (.float (.finite 0)))).float?
      return [name, .number (.float time)]
  | _ => none

/-- The parameters of `apply_analysis`.  A text or an object is no list of
sections: what comes of it has no name. -/
def params? (request : AnalysisRequest) : Option (List Json) := do
  let bpm ← request.bpm.float?
  match request.sections with
  | .array items =>
      let sections ← items.mapM sectionParams?
      return [.number (.float bpm), .number (.float request.clipStartBeat)] ++
        sections.flatten
  | _ => none

end AnalysisRequest

namespace OscValue

/-- The argument that `send_message` makes of a text or a finite number; a
float that is not finite, which it sends too, is left out. -/
def ofJson? : Json → Option OscValue
  | .string text => some (.string text)
  | .number (.int value) => some (.int value)
  | .number (.float (.finite value)) => some (.float value)
  | _ => none

/-- What becomes that argument. -/
def json : OscValue → Json
  | .string text => .string text
  | .int value => .number (.int value)
  | .float value => .number (.float (.finite value))

theorem mapM_ofJson?_json (values : List OscValue) :
    (values.map json).mapM ofJson? = some values := by
  induction values with
  | nil => rfl
  | cons value rest inductionHypothesis =>
      rw [List.map_cons, List.mapM_cons, inductionHypothesis]
      cases value <;> rfl

end OscValue

/-- The message of `apply_analysis`, if it can be made. -/
def AnalysisRequest.message? (request : AnalysisRequest) :
    Option (String × List OscValue) := do
  let params ← request.params?
  let values ← params.mapM OscValue.ofJson?
  return ("/live/song/replace_all_cues", values)

/-! ## Documented bodies -/

/-- A section with a name and a beat, and without a time. -/
def DocumentedSection (item : Json) (documented : String × ℚ) : Prop :=
  ∃ fields beat, item = .object fields ∧
    Json.field? fields "name" = some (.string documented.1) ∧
    Json.field? fields "beat" = some beat ∧ beat.Is documented.2 ∧
    Json.field? fields "time" = none

/-- The documented body: a tempo, and a list of sections that is not empty. -/
structure DocumentedBody
    (fields : List (String × Json))
    (sections : List (String × ℚ)) : Prop where
  bpm : ∃ json bpm, Json.field? fields "bpm" = some json ∧ json.Is bpm ∧
    0 < bpm
  listed : ∃ items, Json.field? fields "sections" = some (.array items) ∧
    List.Forall₂ DocumentedSection items sections
  nonempty : sections ≠ []

/-- The value becomes a float that can be packed. -/
def PacksAsFloat (json : Json) : Prop :=
  ∃ value, json.float? = some (.finite value) ∧ (OscValue.float value).Packs

/-- The parameters that the bridge sends for a request are decoded into one
pair for each section, with its name and its beat. -/
def AnalysisRequest.Honours
    (request : AnalysisRequest)
    (sections : List (String × ℚ)) : Prop :=
  ∃ message args data clipStartBeat, request.message? = some message ∧
    List.Forall₂ OscValue.Arrives message.2 args ∧
    CueData.read? args = some data ∧
    data.clipStartBeat = .finite clipStartBeat ∧
    data.pairs? = some (CueData.finitePairs (sections.map fun item =>
      (item.1, roundHalfEven item.2 + clipStartBeat)))

/-- Every section is at the start of the clip, and everything that is sent can
be packed. -/
structure AllAtStart
    (fields : List (String × Json))
    (sections : List (String × ℚ)) : Prop where
  bpm : PacksAsFloat (ClientMessage.get fields "bpm" .null)
  clipStartBeat : PacksAsFloat (clipStartBeatField fields)
  names : ∀ item ∈ sections, (OscValue.string item.1).Packs
  beats : ∀ item ∈ sections, roundHalfEven item.2 = 0

variable {fields : List (String × Json)} {sections : List (String × ℚ)}

/-- The endpoint hands on what it is given. -/
theorem request_of_documentedBody
    {request : AnalysisRequest} {count : Nat}
    (documented : DocumentedBody fields sections)
    (answered : applyAnalysisEndpoint (.value (.object fields)) =
      (.ok count, some request)) :
    request.bpm = ClientMessage.get fields "bpm" .null ∧
      (∃ items, request.sections = .array items ∧
        List.Forall₂ DocumentedSection items sections) ∧
      (clipStartBeatField fields).float? = some request.clipStartBeat := by
  obtain ⟨_, ⟨items, listed, documented⟩, _⟩ := documented
  unfold applyAnalysisEndpoint at answered
  dsimp only at answered
  split at answered
  · simp at answered
  · split at answered
    · rename_i start length clip _
      simp only [Prod.mk.injEq, Option.some.injEq] at answered
      obtain ⟨_, rfl⟩ := answered
      exact ⟨rfl, ⟨items, by simp [ClientMessage.get, listed], documented⟩,
        clip⟩
    · simp at answered

/-- A documented body is answered with ok, unless its start of the clip is no
number. -/
theorem applyAnalysisEndpoint_of_documentedBody
    {clipStartBeat : Floating}
    (documented : DocumentedBody fields sections)
    (start : (clipStartBeatField fields).float? = some clipStartBeat) :
    applyAnalysisEndpoint (.value (.object fields)) =
      (.ok sections.length, some ⟨ClientMessage.get fields "bpm" .null,
        ClientMessage.get fields "sections" (.array []), clipStartBeat⟩) := by
  obtain ⟨⟨json, bpm, tempo, number, positive⟩, ⟨items, listed, each⟩,
    nonempty⟩ := documented
  have bpmField : ClientMessage.get fields "bpm" .null = json := by
    simp [ClientMessage.get, tempo]
  have sectionsField : ClientMessage.get fields "sections" (.array []) =
      .array items := by
    simp [ClientMessage.get, listed]
  have some' : items ≠ [] := by
    rintro rfl
    exact nonempty (List.forall₂_nil_left_iff.mp each)
  have truth : (Json.array items).truth = true := by
    simpa [Json.truth] using some'
  simp only [applyAnalysisEndpoint, bpmField, sectionsField, start,
    number.truth positive.ne', truth, Json.length?, each.length_eq]
  rfl

/-- The bridge sends the name of each documented section with the time 0. -/
theorem mapM_sectionParams?
    {items : List Json}
    (documented : List.Forall₂ DocumentedSection items sections) :
    items.mapM AnalysisRequest.sectionParams? =
      some (sections.map fun item =>
        [.string item.1, .number (.float (.finite 0))]) := by
  induction documented with
  | nil => rfl
  | @cons item own rest others first later inductionHypothesis =>
      obtain ⟨fields, beat, rfl, name, _, _, noTime⟩ := first
      rw [List.mapM_cons, inductionHypothesis]
      simp [AnalysisRequest.sectionParams?, name, ClientMessage.get, noTime,
        Json.float?, Number.float?]

/-- The sections as the bridge reads them, without a time of their own. -/
def undated (sections : List (String × ℚ)) : List AnalysisSection :=
  sections.map fun item => ⟨item.1, 0, item.2⟩

/-- Where a tempo and a start are finite, they are sent with the sections, all
of them at the time 0. -/
theorem message?_eq_some_iff
    {request : AnalysisRequest} {items : List Json}
    {message : String × List OscValue}
    (listed : request.sections = .array items)
    (documented : List.Forall₂ DocumentedSection items sections) :
    request.message? = some message ↔
      ∃ bpm clipStartBeat, request.bpm.float? = some (.finite bpm) ∧
        request.clipStartBeat = .finite clipStartBeat ∧
        message = AbletonBridge.applyAnalysisMessage bpm (undated sections)
          clipStartBeat := by
  have params : ∀ bpm clipStartBeat : ℚ,
      [Json.number (.float (.finite bpm)),
          .number (.float (.finite clipStartBeat))] ++
        (sections.map fun item =>
          [Json.string item.1, .number (.float (.finite 0))]).flatten =
      (AbletonBridge.applyAnalysisMessage bpm (undated sections)
        clipStartBeat).2.map OscValue.json := by
    intro bpm clipStartBeat
    simp [AbletonBridge.applyAnalysisMessage, undated, OscValue.json,
      List.flatMap, Function.comp_def]
  cases tempo : request.bpm.float? with
  | none => simp [AnalysisRequest.message?, AnalysisRequest.params?, tempo]
  | some bpm =>
      have sent : request.params? =
          some ([.number (.float bpm),
              .number (.float request.clipStartBeat)] ++
            (sections.map fun item =>
              [Json.string item.1, .number (.float (.finite 0))]).flatten) := by
        simp [AnalysisRequest.params?, tempo, listed,
          mapM_sectionParams? documented]
      cases bpm with
      | infinite | nan =>
          simp [AnalysisRequest.message?, sent, OscValue.ofJson?]
      | finite bpm =>
          cases start : request.clipStartBeat with
          | infinite | nan =>
              simp [AnalysisRequest.message?, sent, start, OscValue.ofJson?]
          | finite clipStartBeat =>
              rw [start, params] at sent
              simp only [AnalysisRequest.message?, sent, Option.bind_eq_bind,
                Option.bind_some, OscValue.mapM_ofJson?_json, Option.pure_def,
                Option.some.injEq, Floating.finite.injEq]
              constructor
              · rintro rfl
                exact ⟨bpm, clipStartBeat, rfl, rfl, rfl⟩
              · rintro ⟨_, _, rfl, rfl, rfl⟩
                rfl

/-- At the time 0 the decoder finds the start of the clip. -/
theorem packedPairs_undated
    (sections : List (String × ℚ))
    (bpm clipStartBeat : ℚ) :
    packedPairs bpm clipStartBeat (undated sections) =
      sections.map (fun item =>
        (item.1, (roundHalfEven item.2 : ℚ) + toSingle clipStartBeat)) ↔
      ∀ item ∈ sections, roundHalfEven item.2 = 0 := by
  have decoded : packedPairs bpm clipStartBeat (undated sections) =
      sections.map fun item => (item.1, 0 + toSingle clipStartBeat) := by
    simp [packedPairs, undated, CueData.snap, toDouble_toSingle,
      roundHalfEven, Function.comp_def]
  rw [decoded, List.map_inj_left]
  refine forall₂_congr fun item _ => ?_
  rw [Prod.mk.injEq, add_left_inj, eq_comm (a := (0 : ℚ)), Int.cast_eq_zero]
  exact and_iff_right rfl

variable {request : AnalysisRequest} {count : Nat}

theorem allAtStart_of_honours
    (documented : DocumentedBody fields sections)
    (answered : applyAnalysisEndpoint (.value (.object fields)) =
      (.ok count, some request))
    (honours : request.Honours sections) :
    AllAtStart fields sections := by
  obtain ⟨bpmField, ⟨items, listed, each⟩, start⟩ :=
    request_of_documentedBody documented answered
  obtain ⟨message, args, data, from', sent, arrived, reads, begins, pairs⟩ :=
    honours
  obtain ⟨bpm, clipStartBeat, tempo, finite, rfl⟩ :=
    (message?_eq_some_iff listed each).mp sent
  obtain ⟨own, tempoPacks, startPacks, packs⟩ :=
    CueData.read?_applyAnalysisMessage arrived
  obtain rfl := Option.some.inj (own.symm.trans reads)
  obtain rfl := Floating.finite.inj begins
  refine ⟨⟨bpm, bpmField ▸ tempo, tempoPacks⟩,
    ⟨clipStartBeat, finite ▸ start, startPacks⟩, ?_, ?_⟩
  · intro item member
    exact (packs ⟨item.1, 0, item.2⟩ (List.mem_map_of_mem member)).1
  · rw [CueData.pairs?_packed tempoPacks startPacks
      fun item member => (packs item member).2, Option.some.injEq] at pairs
    have same := congrArg LiveSong.accepted pairs
    rw [LiveSong.accepted_finitePairs, LiveSong.accepted_finitePairs] at same
    exact (packedPairs_undated sections _ _).mp same

theorem honours_of_allAtStart
    (documented : DocumentedBody fields sections)
    (answered : applyAnalysisEndpoint (.value (.object fields)) =
      (.ok count, some request))
    (atStart : AllAtStart fields sections) :
    request.Honours sections := by
  obtain ⟨bpmField, ⟨items, listed, each⟩, start⟩ :=
    request_of_documentedBody documented answered
  obtain ⟨⟨bpm, tempo, tempoPacks⟩, ⟨clipStartBeat, clip, startPacks⟩, names,
    beats⟩ := atStart
  have finite : request.clipStartBeat = .finite clipStartBeat :=
    Option.some.inj (start.symm.trans clip)
  have zero : (OscValue.float 0).Packs := by decide +kernel
  have pack : ∀ item ∈ undated sections, (OscValue.string item.name).Packs ∧
      (OscValue.float item.time).Packs := by
    rw [undated, List.forall_mem_map]
    exact fun item member => ⟨names item member, zero⟩
  obtain ⟨args, arrived⟩ :=
    exists_arrives_applyAnalysisMessage tempoPacks startPacks pack
  have reads := (CueData.read?_applyAnalysisMessage arrived).1
  refine ⟨_, args, _, _, (message?_eq_some_iff listed each).mpr
    ⟨bpm, clipStartBeat, bpmField ▸ tempo, finite, rfl⟩, arrived, reads, rfl,
    ?_⟩
  rw [CueData.pairs?_packed tempoPacks startPacks
    fun item member => (pack item member).2,
    (packedPairs_undated sections _ _).mpr beats]

/-- A documented body that is answered with ok is honoured exactly when all its
sections are at the start of the clip, and can be packed. -/
theorem honours_iff_allAtStart
    (documented : DocumentedBody fields sections)
    (answered : applyAnalysisEndpoint (.value (.object fields)) =
      (.ok count, some request)) :
    request.Honours sections ↔ AllAtStart fields sections :=
  ⟨allAtStart_of_honours documented answered,
    honours_of_allAtStart documented answered⟩

/-- A body with one section, at 120 beats a minute. -/
private def oneSectionBody (name : String) (beat : ℚ) :
    List (String × Json) :=
  [("bpm", .number (.float (.finite 120))),
    ("sections", .array [.object [("name", .string name),
      ("beat", .number (.float (.finite beat)))]])]

private theorem documentedBody_oneSection (name : String) (beat : ℚ) :
    DocumentedBody (oneSectionBody name beat) [(name, beat)] where
  bpm := ⟨_, 120, rfl, Or.inl rfl, by norm_num⟩
  listed := ⟨_, rfl, .cons ⟨_, _, rfl, rfl, rfl, Or.inl rfl, rfl⟩ .nil⟩
  nonempty := List.cons_ne_nil _ _

/-- A song header at the start of the clip. -/
theorem honours_iff_allAtStart_header :
    ∃ request, applyAnalysisEndpoint
        (.value (.object (oneSectionBody "== Amazing Grace ==" 0))) =
        (.ok 1, some request) ∧
      request.Honours [("== Amazing Grace ==", 0)] := by
  have documented := documentedBody_oneSection "== Amazing Grace ==" 0
  have start : (clipStartBeatField (oneSectionBody "== Amazing Grace ==" 0)).float? =
      some (.finite 0) := rfl
  have answered := applyAnalysisEndpoint_of_documentedBody documented start
  refine ⟨_, answered, (honours_iff_allAtStart documented answered).mpr ?_⟩
  exact ⟨⟨120, rfl, by decide +kernel⟩, ⟨0, rfl, by decide +kernel⟩,
    by decide +kernel, by decide +kernel⟩

/-- A section on the eighth beat is answered with ok, and decoded to the start
of the clip. -/
theorem not_honours_of_laterBeat :
    ∃ request, applyAnalysisEndpoint
        (.value (.object (oneSectionBody "Verse" 8))) =
        (.ok 1, some request) ∧
      ¬request.Honours [("Verse", 8)] := by
  have documented := documentedBody_oneSection "Verse" 8
  have start : (clipStartBeatField (oneSectionBody "Verse" 8)).float? =
      some (.finite 0) := rfl
  have answered := applyAnalysisEndpoint_of_documentedBody documented start
  refine ⟨_, answered, fun honours => ?_⟩
  have atStart := allAtStart_of_honours documented answered honours
  have rounded := atStart.beats ("Verse", 8) List.mem_cons_self
  revert rounded
  decide +kernel

end AbletonTracks
