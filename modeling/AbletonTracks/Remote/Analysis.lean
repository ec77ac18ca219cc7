import AbletonTracks.Library.Doubles
import AbletonTracks.Remote.Song
import Mathlib.Data.List.Forall2

/-!
# From an analysis to the cues of Ableton

Two operations of the bridge send cue data to the remote script.
`apply_analysis` writes the parameters that `song_replace_all_cues` reads.
`analyze_guide_track` still writes those of an older handler, at an address
that now has the same handler: the text that it starts with is no tempo, so
nothing is applied.
-/

namespace AbletonTracks

open Library

/-! ## The messages -/

/-- A section as `analyze_guide` returns it. -/
structure AnalysisSection where
  name : String
  /-- In seconds. -/
  time : ℚ
  beat : ℚ
  deriving DecidableEq

/-- The operations that send cue data. -/
inductive CueSender
  | analyzeGuideTrack
  | applyAnalysis
  deriving DecidableEq

namespace AbletonBridge

/-- The message of `analyze_guide_track`, in its third step. -/
def analyzeGuideTrackMessage
    (bpm : ℚ)
    (sections : List AnalysisSection) : String × List OscValue :=
  ("/live/song/create_cues_from_data",
    [.string "__tempo__", .float bpm] ++
      sections.flatMap fun item => [.string item.name, .float item.beat])

/-- The message of `apply_analysis`. -/
def applyAnalysisMessage
    (bpm : ℚ)
    (sections : List AnalysisSection)
    (clipStartBeat : ℚ) : String × List OscValue :=
  ("/live/song/replace_all_cues",
    [.float bpm, .float clipStartBeat] ++
      sections.flatMap fun item => [.string item.name, .float item.time])

end AbletonBridge

namespace CueSender

/-- The message of an operation. -/
def message
    (sender : CueSender)
    (bpm clipStartBeat : ℚ)
    (sections : List AnalysisSection) : String × List OscValue :=
  match sender with
  | .analyzeGuideTrack => AbletonBridge.analyzeGuideTrackMessage bpm sections
  | .applyAnalysis =>
      AbletonBridge.applyAnalysisMessage bpm sections clipStartBeat

/-- Where an operation means its sections to be: an analysis at their beats, a
body to apply at their times from where the clip starts. -/
def pairs
    (sender : CueSender)
    (bpm clipStartBeat : ℚ)
    (sections : List AnalysisSection) : List (String × ℚ) :=
  sections.map fun item =>
    (item.name,
      match sender with
      | .analyzeGuideTrack => (roundHalfEven item.beat : ℚ)
      | .applyAnalysis => CueData.snap bpm clipStartBeat item.time)

end CueSender

/-! ## What arrives -/

namespace OscValue

/-- The value can be packed: a text up to the NUL that ends it, a number of a
size that its type holds. -/
def Packs : OscValue → Prop
  | .string text => Char.ofNat 0 ∉ text.toList
  | .int value => packs (.int value) = true
  | .float value => packs (.float (.finite value)) = true

instance : DecidablePred Packs
  | .string _ => inferInstanceAs (Decidable (_ ∉ _))
  | .int _ => inferInstanceAs (Decidable (_ = true))
  | .float _ => inferInstanceAs (Decidable (_ = true))

/-- The value that is packed: a float with single precision. -/
def packed : OscValue → OscValue
  | .float value => .float (toSingle value)
  | value => value

/-- The value arrives as an argument. -/
def Arrives (value : OscValue) (argument : OscArgument) : Prop :=
  value.Packs ∧ value.packed.Carries argument

/-- An argument that carries a value. -/
def argument : OscValue → OscArgument
  | .string text => ⟨text, Text.float? text, Text.int? text, text ≠ "", false⟩
  | .int value =>
      ⟨toString value, some (.finite value), some value, value ≠ 0, false⟩
  | .float value =>
      ⟨toString value, some (.finite value), some value.floor, value ≠ 0,
        false⟩

theorem carries_argument (value : OscValue) : value.Carries value.argument := by
  cases value with
  | string text => exact ⟨rfl, rfl⟩
  | int value => exact ⟨rfl, rfl⟩
  | float value => rfl

/-- Values that can be packed arrive. -/
theorem exists_arrives
    {values : List OscValue}
    (pack : ∀ value ∈ values, value.Packs) :
    ∃ args, List.Forall₂ Arrives values args := by
  refine ⟨values.map fun value => value.packed.argument, ?_⟩
  rw [List.forall₂_map_right_iff, List.forall₂_same]
  intro value member
  exact ⟨pack value member, carries_argument value.packed⟩

end OscValue

/-- A reply arrives with the song's cue points as they are, if single precision
holds their times. -/
theorem LiveSong.carries_of_arrives
    {song : LiveSong} {reply : List OscArgument}
    (exact' : ∀ cue ∈ song.cuePoints, toSingle cue.time = cue.time)
    (replied : List.Forall₂ OscValue.Arrives song.songGetCuePoints reply) :
    List.Forall₂ OscValue.Carries song.songGetCuePoints reply := by
  have whole : ∀ value ∈ song.songGetCuePoints, value.packed = value := by
    intro value member
    obtain ⟨cue, listed, own⟩ := List.mem_flatMap.mp member
    simp only [List.mem_cons, List.not_mem_nil, or_false] at own
    rcases own with rfl | rfl
    · rfl
    · exact congrArg OscValue.float (exact' cue listed)
  generalize song.songGetCuePoints = values at replied whole
  induction replied with
  | nil => exact .nil
  | cons first _ inductionHypothesis =>
      rw [List.forall_mem_cons] at whole
      exact .cons (whole.1 ▸ first.2) (inductionHypothesis whole.2)

/-- Pairs whose beats are finite. -/
def CueData.finitePairs (pairs : List (String × ℚ)) :
    List (String × Floating) :=
  pairs.map fun pair => (pair.1, .finite pair.2)

/-- The message of an operation arrives, and the handler of its address reads
exactly the tempo and the sections that the operation means, and applies
them. -/
def CueSender.Applies
    (sender : CueSender)
    (song : LiveSong)
    (bpm clipStartBeat : ℚ)
    (sections : List AnalysisSection) : Prop :=
  let message := sender.message bpm clipStartBeat sections
  let pairs := sender.pairs bpm clipStartBeat sections
  ∃ handler args, LiveSong.handler? message.1 = some handler ∧
    List.Forall₂ OscValue.Arrives message.2 args ∧
    (CueData.read? args).map (fun data => (data.bpm, data.pairs?)) =
      some (.finite bpm, some (CueData.finitePairs pairs)) ∧
    handler song args = Prod.map id some (song.replaceCues bpm pairs)

/-- Packing keeps the tempo, and moves no section to another beat. -/
def SurvivesPacking
    (bpm clipStartBeat : ℚ)
    (sections : List AnalysisSection) : Prop :=
  (OscValue.float bpm).Packs ∧ toSingle bpm = bpm ∧
    (OscValue.float clipStartBeat).Packs ∧
    ∀ item ∈ sections, (OscValue.string item.name).Packs ∧
      (OscValue.float item.time).Packs ∧
      CueData.snap bpm (toSingle clipStartBeat) (toSingle item.time) =
        CueData.snap bpm clipStartBeat item.time

instance
    (bpm clipStartBeat : ℚ)
    (sections : List AnalysisSection) :
    Decidable (SurvivesPacking bpm clipStartBeat sections) :=
  inferInstanceAs (Decidable (_ ∧ _ ∧ _ ∧ _))

/-! ## What the handler reads -/

/-- What the handler reads of the parameters of `apply_analysis`. -/
def CueData.packed
    (bpm clipStartBeat : ℚ)
    (sections : List AnalysisSection) : CueData :=
  ⟨.finite (toSingle bpm), .finite (toSingle clipStartBeat),
    sections.map fun item => (item.name, .finite (toSingle item.time))⟩

/-- The pairs that it makes of them. -/
def packedPairs
    (bpm clipStartBeat : ℚ)
    (sections : List AnalysisSection) : List (String × ℚ) :=
  sections.map fun item => (item.name,
    CueData.snap (toSingle bpm) (toSingle clipStartBeat) (toSingle item.time))

/-- The handler reads the sections in order, with their packed times. -/
theorem CueData.readCues_of_arrives
    {sections : List AnalysisSection} {args : List OscArgument}
    (arrived : List.Forall₂ OscValue.Arrives
      (sections.flatMap fun item => [.string item.name, .float item.time])
      args) :
    CueData.readCues args =
      sections.map (fun item =>
        (item.name, .finite (toSingle item.time))) ∧
    ∀ item ∈ sections, (OscValue.string item.name).Packs ∧
      (OscValue.float item.time).Packs := by
  induction sections generalizing args with
  | nil =>
      obtain rfl := List.forall₂_nil_left_iff.mp arrived
      exact ⟨rfl, by simp⟩
  | cons item rest inductionHypothesis =>
      rw [List.flatMap_cons, List.cons_append, List.cons_append,
        List.nil_append] at arrived
      obtain ⟨name, _, text, tail, rfl⟩ :=
        List.forall₂_cons_left_iff.mp arrived
      obtain ⟨time, others, number, restArrived, rfl⟩ :=
        List.forall₂_cons_left_iff.mp tail
      obtain ⟨reads, pack⟩ := inductionHypothesis restArrived
      have seconds : time.float? = some (.finite (toSingle item.time)) :=
        number.2
      have same : name.text = item.name := text.2.1
      refine ⟨?_, List.forall_mem_cons.mpr ⟨⟨text.1, number.1⟩, pack⟩⟩
      simp only [CueData.readCues, seconds, reads, same, List.map_cons]

/-- The text that `analyze_guide_track` starts with is no tempo, so its
message is refused. -/
theorem CueData.read?_analyzeGuideTrackMessage
    {bpm : ℚ} {sections : List AnalysisSection} {args : List OscArgument}
    (arrived : List.Forall₂ OscValue.Arrives
      (AbletonBridge.analyzeGuideTrackMessage bpm sections).2 args) :
    CueData.read? args = none := by
  obtain ⟨first, _, text, tail, rfl⟩ := List.forall₂_cons_left_iff.mp arrived
  obtain ⟨second, others, _, _, rfl⟩ := List.forall₂_cons_left_iff.mp tail
  have noTempo : first.float? = none := by
    rw [text.2.2]
    decide
  simp [CueData.read?, noTempo]

/-- The handler reads the parameters that `apply_analysis` writes. -/
theorem CueData.read?_applyAnalysisMessage
    {bpm clipStartBeat : ℚ} {sections : List AnalysisSection}
    {args : List OscArgument}
    (arrived : List.Forall₂ OscValue.Arrives
      (AbletonBridge.applyAnalysisMessage bpm sections clipStartBeat).2
      args) :
    CueData.read? args = some (.packed bpm clipStartBeat sections) ∧
    (OscValue.float bpm).Packs ∧ (OscValue.float clipStartBeat).Packs ∧
    ∀ item ∈ sections, (OscValue.string item.name).Packs ∧
      (OscValue.float item.time).Packs := by
  obtain ⟨first, _, tempo, tail, rfl⟩ := List.forall₂_cons_left_iff.mp arrived
  obtain ⟨second, others, start, restArrived, rfl⟩ :=
    List.forall₂_cons_left_iff.mp tail
  obtain ⟨reads, pack⟩ := CueData.readCues_of_arrives restArrived
  have firstNumber : first.float? = some (.finite (toSingle bpm)) := tempo.2
  have secondNumber : second.float? =
      some (.finite (toSingle clipStartBeat)) := start.2
  refine ⟨?_, tempo.1, start.1, pack⟩
  simp [CueData.read?, firstNumber, secondNumber, reads, CueData.packed]

/-- Values that can be packed make a message that arrives. -/
theorem exists_arrives_applyAnalysisMessage
    {bpm clipStartBeat : ℚ} {sections : List AnalysisSection}
    (tempo : (OscValue.float bpm).Packs)
    (start : (OscValue.float clipStartBeat).Packs)
    (pack : ∀ item ∈ sections, (OscValue.string item.name).Packs ∧
      (OscValue.float item.time).Packs) :
    ∃ args, List.Forall₂ OscValue.Arrives
      (AbletonBridge.applyAnalysisMessage bpm sections clipStartBeat).2
      args := by
  refine OscValue.exists_arrives ?_
  intro value member
  simp only [AbletonBridge.applyAnalysisMessage, List.mem_append,
    List.mem_cons, List.not_mem_nil, or_false, List.mem_flatMap] at member
  rcases member with (rfl | rfl) | ⟨item, inSections, rfl | rfl⟩
  · exact tempo
  · exact start
  · exact (pack item inSections).1
  · exact (pack item inSections).2

/-! ## What the handler applies -/

/-- Floats that can be packed are far from the largest doubles. -/
theorem OscValue.abs_toSingle_le
    {value : ℚ}
    (packs : (OscValue.float value).Packs) :
    |toSingle value| ≤ 2 ^ 130 := by
  have small : |value| < 2 ^ 128 - 2 ^ 103 := of_decide_eq_true packs
  have near := FloatFormat.abs_round_le .single value
  rw [FloatFormat.round_single] at near
  linarith

/-- Where nothing overflows the beat of a time is finite. -/
theorem CueData.beat_eq_ok
    {bpm clipStartBeat seconds : ℚ}
    {cues : List (String × Floating)}
    (tempo : |bpm| ≤ 2 ^ 130)
    (start : |clipStartBeat| ≤ 2 ^ 130)
    (time : |seconds| ≤ 2 ^ 130) :
    CueData.beat ⟨.finite bpm, .finite clipStartBeat, cues⟩
        (.finite seconds) =
      .ok (.finite (snap bpm clipStartBeat seconds)) := by
  have finite : ∀ value : ℚ, |value| ≤ 16 * (2 ^ 130 * 2 ^ 130) →
      Floating.ofRat value = .finite (toDouble value) := by
    intro value moderate
    refine Floating.ofRat_eq_finite (moderate.trans ?_)
    rw [show (16 : ℚ) = 2 ^ 4 by norm_num, ← pow_add, ← pow_add]
    exact pow_le_pow_right₀ (by norm_num) (by decide)
  have one : (1 : ℚ) ≤ 2 ^ 130 := one_le_pow₀ (by norm_num)
  generalize (2 : ℚ) ^ 130 = bound at *
  have square : bound ≤ bound * bound :=
    le_mul_of_one_le_left (by linarith) one
  have product : |seconds * bpm| ≤ bound * bound := by
    rw [abs_mul]
    exact mul_le_mul time tempo (abs_nonneg _) (by linarith)
  have rounded := abs_toDouble_le (seconds * bpm)
  have quotient : |toDouble (seconds * bpm) / 60| ≤ 3 * (bound * bound) := by
    rw [abs_div, abs_of_pos (by norm_num : (0 : ℚ) < 60)]
    linarith [abs_nonneg (toDouble (seconds * bpm))]
  have beats := abs_toDouble_le (toDouble (seconds * bpm) / 60)
  have sum : |(roundHalfEven (toDouble (toDouble (seconds * bpm) / 60)) : ℚ) +
      clipStartBeat| ≤ 16 * (bound * bound) := by
    have nearest := abs_roundHalfEven_sub_le
      (toDouble (toDouble (seconds * bpm) / 60))
    have near : |toDouble (toDouble (seconds * bpm) / 60)| ≤
        7 * (bound * bound) := by linarith
    rw [abs_le] at start nearest near ⊢
    constructor <;> linarith
  simp only [beat, Floating.mul, finite _ (product.trans (by linarith)),
    Floating.div, finite _ (quotient.trans (by linarith)), Floating.round,
    Floating.add, bind, Except.bind, pure, Except.pure, finite _ sum]
  rfl

/-- What is packed becomes pairs, none of them left out. -/
theorem CueData.pairs?_packed
    {bpm clipStartBeat : ℚ} {sections : List AnalysisSection}
    (tempo : (OscValue.float bpm).Packs)
    (start : (OscValue.float clipStartBeat).Packs)
    (times : ∀ item ∈ sections, (OscValue.float item.time).Packs) :
    (CueData.packed bpm clipStartBeat sections).pairs? =
      some (finitePairs (packedPairs bpm clipStartBeat sections)) := by
  have pairsOf : ∀ data : CueData, data.bpm = .finite (toSingle bpm) →
      data.clipStartBeat = .finite (toSingle clipStartBeat) →
      data.pairsOf (sections.map fun item =>
        (item.name, .finite (toSingle item.time))) =
        some (finitePairs (packedPairs bpm clipStartBeat sections)) := by
    rintro ⟨_, _, cues⟩ rfl rfl
    induction sections with
    | nil => rfl
    | cons item rest inductionHypothesis =>
        obtain ⟨first, others⟩ := List.forall_mem_cons.mp times
        have beat := @CueData.beat_eq_ok _ _ _ cues
          (OscValue.abs_toSingle_le tempo) (OscValue.abs_toSingle_le start)
          (OscValue.abs_toSingle_le first)
        simp only [List.map_cons, CueData.pairsOf, beat,
          inductionHypothesis others]
        rfl
  exact pairsOf _ rfl rfl

/-- Live accepts a pair with a finite beat. -/
theorem LiveSong.accepted_finitePairs (pairs : List (String × ℚ)) :
    accepted (CueData.finitePairs pairs) = pairs := by
  simp [accepted, CueData.finitePairs, List.filterMap_map, Floating.number?]

/-- The pairs that the handler makes of its parameters are the ones that
`apply_analysis` means, exactly when packing moves no section. -/
theorem packedPairs_eq_iff
    {bpm clipStartBeat : ℚ} {sections : List AnalysisSection}
    (exact' : toSingle bpm = bpm) :
    packedPairs bpm clipStartBeat sections =
      CueSender.applyAnalysis.pairs bpm clipStartBeat sections ↔
    ∀ item ∈ sections,
      CueData.snap bpm (toSingle clipStartBeat) (toSingle item.time) =
        CueData.snap bpm clipStartBeat item.time := by
  simp only [packedPairs, CueSender.pairs, List.map_inj_left, Prod.mk.injEq,
    true_and, exact']

/-- Cue data with a section is applied. -/
theorem LiveSong.songReplaceAllCues_of_arrives
    {song : LiveSong} {args : List OscArgument}
    {bpm clipStartBeat : ℚ} {sections : List AnalysisSection}
    (arrived : List.Forall₂ OscValue.Arrives
      (AbletonBridge.applyAnalysisMessage bpm sections clipStartBeat).2 args)
    (nonempty : sections ≠ []) :
    song.songReplaceAllCues args =
      Prod.map id some (song.replaceCues (toSingle bpm)
        (packedPairs bpm clipStartBeat sections)) := by
  obtain ⟨reads, tempo, start, pack⟩ :=
    CueData.read?_applyAnalysisMessage arrived
  have pairs := CueData.pairs?_packed tempo start
    fun item member => (pack item member).2
  obtain ⟨first, rest, rfl⟩ := List.exists_cons_of_ne_nil nonempty
  have accepts := accepted_finitePairs
    (packedPairs bpm clipStartBeat (first :: rest))
  simp only [songReplaceAllCues, reads, pairs]
  simp only [packedPairs, List.map_cons, CueData.finitePairs] at accepts ⊢
  rw [accepts]
  rfl

/-- What an operation sends is what Ableton applies, exactly when it is sent
by `apply_analysis` and survives the packing. -/
theorem applies_iff_survivesPacking
    (sender : CueSender)
    (song : LiveSong)
    (bpm clipStartBeat : ℚ)
    {sections : List AnalysisSection}
    (nonempty : sections ≠ []) :
    sender.Applies song bpm clipStartBeat sections ↔
      sender = .applyAnalysis ∧
        SurvivesPacking bpm clipStartBeat sections := by
  constructor
  · rintro ⟨handler, args, _, arrived, decoded, _⟩
    cases sender with
    | analyzeGuideTrack =>
        rw [CueData.read?_analyzeGuideTrackMessage arrived] at decoded
        cases decoded
    | applyAnalysis =>
        obtain ⟨reads, tempo, start, pack⟩ :=
          CueData.read?_applyAnalysisMessage arrived
        have pairs := CueData.pairs?_packed tempo start
          fun item member => (pack item member).2
        rw [reads, Option.map_some, pairs, Option.some.injEq, Prod.mk.injEq,
          Option.some.injEq] at decoded
        have sameTempo : toSingle bpm = bpm := Floating.finite.inj decoded.1
        have samePairs := congrArg LiveSong.accepted decoded.2
        rw [LiveSong.accepted_finitePairs, LiveSong.accepted_finitePairs]
          at samePairs
        have unmoved := (packedPairs_eq_iff sameTempo).mp samePairs
        refine ⟨rfl, tempo, sameTempo, start, fun item member => ?_⟩
        obtain ⟨name, time⟩ := pack item member
        exact ⟨name, time, unmoved item member⟩
  · rintro ⟨rfl, tempo, sameTempo, start, survives⟩
    obtain ⟨args, arrived⟩ := exists_arrives_applyAnalysisMessage tempo start
      fun item member => ⟨(survives item member).1, (survives item member).2.1⟩
    have samePairs := (packedPairs_eq_iff sameTempo).mpr
      fun item member => (survives item member).2.2
    refine ⟨LiveSong.songReplaceAllCues, args, rfl, arrived, ?_, ?_⟩
    · rw [(CueData.read?_applyAnalysisMessage arrived).1, Option.map_some,
        CueData.pairs?_packed tempo start
          fun item member => (survives item member).2.1]
      exact congrArg some (congrArg₂ Prod.mk
        (congrArg Floating.finite sameTempo)
        (congrArg (some ∘ CueData.finitePairs) samePairs))
    · rw [LiveSong.songReplaceAllCues_of_arrives arrived nonempty, samePairs,
        sameTempo]

/-- One section, a bar into the song, is applied. -/
theorem applies_iff_survivesPacking_verse :
    CueSender.applyAnalysis.Applies {} 120 0 [⟨"Verse", 2, 4⟩] :=
  (applies_iff_survivesPacking .applyAnalysis {} 120 0 (by simp)).mpr
    ⟨rfl, by decide +kernel⟩

/-- Whatever arrives of the message that `analyze_guide_track` sends for the
same section, the song stays as it is. -/
theorem not_applies_of_analyzeGuideTrack :
    ¬CueSender.analyzeGuideTrack.Applies { tempo := 100 } 120 0
        [⟨"Verse", 2, 4⟩] ∧
      ∀ handler args,
        LiveSong.handler? (AbletonBridge.analyzeGuideTrackMessage 120
          [⟨"Verse", 2, 4⟩]).1 = some handler →
        List.Forall₂ OscValue.Arrives
          (AbletonBridge.analyzeGuideTrackMessage 120 [⟨"Verse", 2, 4⟩]).2
          args →
        handler { tempo := 100 } args = ({ tempo := 100 }, some 0) := by
  constructor
  · rintro ⟨_, args, _, arrived, decoded, _⟩
    rw [CueData.read?_analyzeGuideTrackMessage arrived] at decoded
    cases decoded
  · rintro handler args registered arrived
    obtain rfl : LiveSong.songReplaceAllCues = handler :=
      Option.some.inj registered
    simp only [LiveSong.songReplaceAllCues,
      CueData.read?_analyzeGuideTrackMessage arrived]

end AbletonTracks
