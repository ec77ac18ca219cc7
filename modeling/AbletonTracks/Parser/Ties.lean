import AbletonTracks.Parser.CueIndex

/-!
# Markers on a song start

Several markers can lie at the position where a song starts.  The sort puts the
headers before them, but it leaves a start keyword where Ableton lists it, so a
marker listed before it is still read as one of the song before.
-/

namespace AbletonTracks

open Library

namespace Parser

variable {cuePoints cues : List CuePoint} {current : Option ℚ}
  {position : ℚ} {cue : CuePoint}

/-! ## Which song a marker is in -/

/-- The sections of the set in order, each with the position of its song. -/
def placements (songs : List Song) : List (ℚ × Section) :=
  songs.flatMap fun song => song.sections.map fun item => (song.position, item)

/-- The cues from the first song start on, each with the position of the last
song start; `current` is that of the cues before. -/
def placed : Option ℚ → List CuePoint → List (ℚ × CuePoint)
  | _, [] => []
  | current, cue :: rest =>
      if startsSong cue then
        (cue.position, cue) :: placed (some cue.position) rest
      else
        (current.toList.map fun start => (start, cue)) ++ placed current rest

/-- The last song start, after these cues. -/
def lastStart : Option ℚ → List CuePoint → Option ℚ
  | current, [] => current
  | current, cue :: rest =>
      lastStart (if startsSong cue then some cue.position else current) rest

-- Where it is not kept folded, `rfl` evaluates `startsSong`.
attribute [local irreducible] startsSong in
@[simp] theorem lastStart_cons
    (current : Option ℚ)
    (cue : CuePoint)
    (rest : List CuePoint) :
    lastStart current (cue :: rest) =
      lastStart (if startsSong cue then some cue.position else current) rest :=
  rfl

theorem placed_append (current : Option ℚ) (early late : List CuePoint) :
    placed current (early ++ late) =
      placed current early ++ placed (lastStart current early) late := by
  induction early generalizing current with
  | nil => rfl
  | cons cue rest inductionHypothesis =>
      simp only [List.cons_append, placed, lastStart_cons,
        inductionHypothesis]
      split
      · rfl
      · rw [List.append_assoc]

/-- Without a song start the cues go to the song before them, if there is
one. -/
theorem placed_of_follows
    (follows : ∀ cue ∈ cues, startsSong cue = false) :
    placed current cues =
      current.toList.flatMap fun start => cues.map fun cue => (start, cue) := by
  induction cues with
  | nil => cases current <;> rfl
  | cons cue rest inductionHypothesis =>
      obtain ⟨first, others⟩ := List.forall_mem_cons.mp follows
      simp only [placed, first, Bool.false_eq_true, if_false,
        inductionHypothesis others]
      cases current <;> simp

/-- Cues at the start of a song go to that song. -/
theorem placed_of_at
    (at' : ∀ cue ∈ cues, cue.position = position) :
    placed (some position) cues = cues.map fun cue => (position, cue) := by
  induction cues with
  | nil => rfl
  | cons cue rest inductionHypothesis =>
      obtain ⟨first, others⟩ := List.forall_mem_cons.mp at'
      simp only [placed, first, inductionHypothesis others, List.map_cons]
      split <;> rfl

/-- No cue is in two songs. -/
theorem placed_sublist (current : Option ℚ) (cues : List CuePoint) :
    ((placed current cues).map Prod.snd).Sublist cues := by
  induction cues generalizing current with
  | nil => exact List.Sublist.slnil
  | cons cue rest inductionHypothesis =>
      simp only [placed]
      split
      · exact (inductionHypothesis _).cons_cons cue
      · cases current with
        | none => exact (inductionHypothesis none).cons cue
        | some start => exact (inductionHypothesis _).cons_cons cue

theorem mem_of_lastStart
    (last : lastStart current cues = some position) :
    current = some position ∨ ∃ cue ∈ cues, cue.position = position := by
  induction cues generalizing current with
  | nil => exact Or.inl last
  | cons cue rest inductionHypothesis =>
      rw [lastStart_cons] at last
      rcases inductionHypothesis last with here | ⟨other, member, same⟩
      · split at here
        · exact Or.inr ⟨cue, List.mem_cons_self, Option.some.inj here⟩
        · exact Or.inl here
      · exact Or.inr ⟨other, List.mem_cons_of_mem _ member, same⟩

theorem countP_placed_le
    {test : ℚ × CuePoint → Bool} {counts : CuePoint → Bool}
    (implies : ∀ entry, test entry = true → counts entry.2 = true) :
    (placed current cues).countP test ≤ cues.countP counts :=
  calc (placed current cues).countP test
      ≤ (placed current cues).countP (counts ∘ Prod.snd) :=
        List.countP_mono_left fun entry _ => implies entry
    _ = ((placed current cues).map Prod.snd).countP counts :=
        List.countP_map.symm
    _ ≤ cues.countP counts := (placed_sublist current cues).countP_le

/-! ## The placements of a tree -/

/-- The songs place the sections as the cues are placed. -/
def Placed (songs : List Song) (cues : List CuePoint) : Prop :=
  List.Forall₂
    (fun (entry : ℚ × Section) (cue : ℚ × CuePoint) =>
      entry.1 = cue.1 ∧ entry.2.Shows cue.2)
    (placements songs) (placed none cues)

theorem placed_fromFirstStart (cues : List CuePoint) :
    placed none (fromFirstStart cues) = placed none cues := by
  induction cues with
  | nil => rfl
  | cons cue rest inductionHypothesis =>
      cases starts : startsSong cue with
      | true => simp [fromFirstStart, starts]
      | false =>
          have dropped : fromFirstStart (cue :: rest) = fromFirstStart rest := by
            simp [fromFirstStart, starts]
          rw [dropped, inductionHypothesis]
          simp [placed, starts]

/-- A song's group of cues is placed at its first one. -/
theorem placed_group
    {song : Song} {group : List CuePoint}
    (made : song.MadeOf group)
    (current : Option ℚ)
    (later : List CuePoint) :
    placed current (group ++ later) =
      (group.map fun cue => (song.position, cue)) ++
        placed (some song.position) later := by
  obtain ⟨first, rest, rfl, starts, same, follows⟩ := made.opens
  have last : lastStart (some song.position) rest = some song.position := by
    clear made
    induction rest with
    | nil => rfl
    | cons cue others inductionHypothesis =>
        obtain ⟨head, tail⟩ := List.forall_mem_cons.mp follows
        simpa [head] using inductionHypothesis tail
  rw [List.cons_append, placed, if_pos starts, ← same, placed_append,
    placed_of_follows follows, last]
  simp

theorem BuiltFrom.placed
    {songs : List Song}
    (built : BuiltFrom songs cues) :
    Placed songs cues := by
  obtain ⟨groups, whole, all⟩ := built
  rw [Placed, ← placed_fromFirstStart, ← whole]
  clear whole
  generalize (none : Option ℚ) = current
  induction all generalizing current with
  | nil => exact .nil
  | @cons song group rest others made _ inductionHypothesis =>
      rw [List.flatten_cons, placed_group made]
      refine List.rel_append ?_ (inductionHypothesis _)
      rw [List.forall₂_map_left_iff, List.forall₂_map_right_iff]
      exact made.shows.imp fun _ _ shows' => ⟨rfl, shows'⟩

/-! ## The cues at one position -/

theorem sortKey_eq_toLex_iff {cue : CuePoint} {rank : Nat} :
    sortKey cue = toLex (position, rank) ↔
      cue.position = position ∧
        (if (songHeader? (Text.strip cue.name)).isSome then 0 else 1) =
          rank := by
  simp [sortKey]

theorem sortKey_header_iff {cue : CuePoint} :
    sortKey cue = toLex (position, 0) ↔
      cue.position = position ∧
        (songHeader? (Text.strip cue.name)).isSome = true := by
  rw [sortKey_eq_toLex_iff]
  split <;> simp_all

/-- A cue at a position is a header there or any other cue there. -/
theorem sortKey_cases {cue : CuePoint} (at' : cue.position = position) :
    sortKey cue = toLex (position, 0) ∨ sortKey cue = toLex (position, 1) := by
  rw [sortKey_eq_toLex_iff, sortKey_eq_toLex_iff]
  split <;> simp [at']

theorem toLex_zero_lt_one (position : ℚ) :
    toLex (position, 0) < toLex (position, 1) :=
  Prod.Lex.toLex_lt_toLex.mpr (Or.inr ⟨rfl, zero_lt_one⟩)

/-- Where a cue at a position stands in the sort among the others there. -/
theorem sortKey_at_iff {cue : CuePoint} :
    (sortKey cue < toLex (position, 1) ∧ cue.position = position ↔
      sortKey cue = toLex (position, 0)) ∧
    (sortKey cue = toLex (position, 1) ∧ cue.position = position ↔
      sortKey cue = toLex (position, 1)) ∧
    ¬(toLex (position, 1) < sortKey cue ∧ cue.position = position) := by
  have less := toLex_zero_lt_one position
  refine ⟨⟨?_, ?_⟩, ⟨And.left, ?_⟩, ?_⟩
  · rintro ⟨before, at'⟩
    exact (sortKey_cases at').resolve_right before.ne
  · intro header
    exact ⟨header ▸ less, (sortKey_eq_toLex_iff.mp header).1⟩
  · intro other
    exact ⟨other, (sortKey_eq_toLex_iff.mp other).1⟩
  · rintro ⟨behind, at'⟩
    rcases sortKey_cases at' with header | other
    · exact lt_asymm less (header ▸ behind)
    · exact behind.ne' other

/-- The cues at a position in the order of the sort: first the headers, then
the others as Ableton lists them. -/
def tied (cuePoints : List CuePoint) (position : ℚ) : List CuePoint :=
  (cuePoints.filter fun cue => sortKey cue = toLex (position, 0)) ++
    cuePoints.filter fun cue => sortKey cue = toLex (position, 1)

theorem exists_ties (cuePoints : List CuePoint) (position : ℚ) :
    ∃ before after,
      sortedBy sortKey cuePoints =
        before ++ (tied cuePoints position ++ after) ∧
      (∀ cue ∈ before, cue.position < position) ∧
      ∀ cue ∈ after, position < cue.position := by
  have stable := stablySorted_sortedBy sortKey cuePoints
  generalize sortedBy sortKey cuePoints = order at stable
  have ordered : order.Pairwise fun early late =>
      early.position ≤ late.position := by
    apply stable.ordered.imp
    intro early late before
    rcases Prod.Lex.toLex_le_toLex.mp before with earlier | ⟨same, _⟩
    · exact earlier.le
    · exact le_of_eq same
  refine ⟨order.filter fun cue => cue.position < position,
    order.filter fun cue => position < cue.position, ?_, by simp, by simp⟩
  -- The cues at the position, split once more by what they are.
  have here : (order.filter fun cue => cue.position = position) =
      (order.filter fun cue => sortKey cue = toLex (position, 0)) ++
        order.filter fun cue => sortKey cue = toLex (position, 1) := by
    have split := eq_filter_append
      (stable.ordered.filter fun cue => cue.position = position)
      (toLex (position, 1))
    simp only [List.filter_filter] at split
    have noneBehind : (order.filter fun cue =>
        decide (toLex (position, 1) < sortKey cue) &&
          decide (cue.position = position)) = [] := by
      simpa [List.filter_eq_nil_iff] using
        fun cue _ behind => not_and.mp sortKey_at_iff.2.2 behind
    rw [noneBehind, List.append_nil] at split
    simpa only [← Bool.decide_and, sortKey_at_iff] using split
  rw [tied, ← stable.stable, ← stable.stable, ← here]
  exact eq_filter_append ordered position

theorem position_of_mem_tied
    {other : CuePoint}
    (member : other ∈ tied cuePoints position) :
    other.position = position := by
  simp only [tied, List.mem_append, List.mem_filter, decide_eq_true_eq,
    sortKey_eq_toLex_iff] at member
  rcases member with ⟨_, at', _⟩ | ⟨_, at', _⟩
  · exact at'
  · exact at'

/-! ## Joining the song that starts there -/

/-- Every marker like this one is in a song at its position: the songs there
have as many sections with its name and position as there are such markers. -/
def JoinsTiedSong (cuePoints : List CuePoint) (cue : CuePoint) : Prop :=
  ((placements (parseMarkers cuePoints)).countP fun entry =>
      entry.1 = cue.position ∧ entry.2.position = cue.position ∧
        entry.2.name = Text.strip cue.name) =
    cuePoints.countP fun other => markerKey other = markerKey cue

/-- Some song starts where the marker is. -/
def OnSongStart (cuePoints : List CuePoint) (cue : CuePoint) : Prop :=
  ∃ start ∈ cuePoints, startsSong start = true ∧
    start.position = cue.position

/-- A marker on a song start joins the song that starts there. -/
def TiesJoin (cuePoints : List CuePoint) : Prop :=
  ∀ cue ∈ cuePoints, startsSong cue = false → OnSongStart cuePoints cue →
    JoinsTiedSong cuePoints cue

instance (cuePoints : List CuePoint) : Decidable (TiesJoin cuePoints) :=
  inferInstanceAs (Decidable (∀ cue ∈ cuePoints, startsSong cue = false →
    (∃ start ∈ cuePoints, startsSong start = true ∧
      start.position = cue.position) → _ = _))

/-- A header stands at the position. -/
def HasHeader (cuePoints : List CuePoint) (position : ℚ) : Prop :=
  ∃ header ∈ cuePoints, header.position = position ∧
    (songHeader? (Text.strip header.name)).isSome = true

/-- A marker on a song start has a header at its position, or is listed after
a song start there. -/
def StartsListedFirst (cuePoints : List CuePoint) : Prop :=
  ∀ early cue late, cuePoints = early ++ cue :: late →
    startsSong cue = false → OnSongStart cuePoints cue →
    HasHeader cuePoints cue.position ∨
    ∃ start ∈ early, start.position = cue.position ∧ startsSong start = true

/-- A section shows a marker that starts no song exactly when it has its
name. -/
theorem sectionName_eq_iff
    {cue other : CuePoint}
    (follows : startsSong cue = false) :
    sectionName other = Text.strip cue.name ↔
      Text.strip other.name = Text.strip cue.name := by
  unfold sectionName
  split
  · rename_i header
    constructor
    · intro start
      rw [startsSong, ← start] at follows
      exact absurd follows (by decide +kernel)
    · intro same
      rw [same] at header
      simp [startsSong, header] at follows
  · rfl

theorem countP_of_forall₂
    {α β : Type} {related : α → β → Prop}
    {test : α → Bool} {counts : β → Bool}
    {items : List α} {others : List β}
    (all : List.Forall₂ related items others)
    (agree : ∀ item other, related item other → test item = counts other) :
    items.countP test = others.countP counts := by
  induction all with
  | nil => rfl
  | cons first _ inductionHypothesis =>
      rw [List.countP_cons, List.countP_cons, inductionHypothesis,
        agree _ _ first]

/-- Elsewhere there are no markers like this one. -/
theorem countP_of_apart
    (apart : ∀ other ∈ cues, other.position ≠ cue.position) :
    (cues.countP fun other => markerKey other = markerKey cue) = 0 := by
  rw [List.countP_eq_zero]
  intro other member same
  exact apart other member (Prod.mk.inj (of_decide_eq_true same)).2

theorem countP_placed_le_markers :
    ((placed current cues).countP fun entry =>
      entry.1 = cue.position ∧ markerKey entry.2 = markerKey cue) ≤
      cues.countP fun other => markerKey other = markerKey cue := by
  apply countP_placed_le
  intro entry both
  exact decide_eq_true (of_decide_eq_true both).2

/-- Whether a marker joins the song that starts at its position shows among
the cues there. -/
theorem exists_joins_iff
    (cuePoints : List CuePoint)
    {cue : CuePoint}
    (follows : startsSong cue = false) :
    ∃ current, (∀ start ∈ current, start < cue.position) ∧
      (JoinsTiedSong cuePoints cue ↔
        ((placed current (tied cuePoints cue.position)).countP fun entry =>
            entry.1 = cue.position ∧ markerKey entry.2 = markerKey cue) =
          (tied cuePoints cue.position).countP fun other =>
            markerKey other = markerKey cue) := by
  obtain ⟨before, after, whole, earlier, later⟩ :=
    exists_ties cuePoints cue.position
  have noneBefore := countP_of_apart fun other member =>
    (earlier other member).ne
  have noneAfter := countP_of_apart fun other member =>
    (later other member).ne'
  have unplaced : ∀ {cues : List CuePoint} (current : Option ℚ),
      (cues.countP fun other => markerKey other = markerKey cue) = 0 →
      ((placed current cues).countP fun entry =>
        entry.1 = cue.position ∧ markerKey entry.2 = markerKey cue) = 0 :=
    fun current nothing =>
      Nat.le_zero.mp (countP_placed_le_markers.trans_eq nothing)
  refine ⟨lastStart none before, ?_, ?_⟩
  · intro start last
    rcases mem_of_lastStart last with impossible | ⟨other, member, rfl⟩
    · cases impossible
    · exact earlier other member
  · have shown : ((placements (parseMarkers cuePoints)).countP fun entry =>
        entry.1 = cue.position ∧ entry.2.position = cue.position ∧
          entry.2.name = Text.strip cue.name) =
        (placed none (sortedBy sortKey cuePoints)).countP fun entry =>
          entry.1 = cue.position ∧ markerKey entry.2 = markerKey cue := by
      apply countP_of_forall₂ (builtFrom_parseMarkers cuePoints).placed
      rintro entry marker ⟨start, shows'⟩
      rw [decide_eq_decide, start, shows'.position, shows'.name,
        sectionName_eq_iff follows, markerKey, markerKey, Prod.mk.injEq]
      exact and_congr_right fun _ => and_comm
    rw [JoinsTiedSong, shown, ← (sortedBy_perm sortKey cuePoints).countP_eq,
      whole, placed_append, placed_append, List.countP_append,
      List.countP_append, List.countP_append, List.countP_append,
      unplaced _ noneBefore, unplaced _ noneAfter, noneBefore, noneAfter]
    simp only [zero_add, add_zero]

/-- Where a song start comes first, the markers at its position join it. -/
theorem joins_of_starts
    {first : CuePoint} {rest : List CuePoint}
    (follows : startsSong cue = false)
    (whole : tied cuePoints cue.position = first :: rest)
    (starts : startsSong first = true) :
    JoinsTiedSong cuePoints cue := by
  obtain ⟨current, _, joins⟩ := exists_joins_iff cuePoints follows
  have at' : ∀ other ∈ first :: rest, other.position = cue.position := by
    rw [← whole]
    exact fun other => position_of_mem_tied
  obtain ⟨firstAt, restAt⟩ := List.forall_mem_cons.mp at'
  have placed' : placed current (first :: rest) =
      (first :: rest).map fun other => (cue.position, other) := by
    rw [placed, if_pos starts, firstAt, placed_of_at restAt, List.map_cons]
  rw [joins, whole, placed', List.countP_map]
  simp [Function.comp_def]

/-- A marker before every song start at its position does not join one. -/
theorem not_joins_of_before
    {early late : List CuePoint}
    (whole : tied cuePoints cue.position = early ++ cue :: late)
    (follows : ∀ other ∈ early ++ [cue], startsSong other = false) :
    ¬JoinsTiedSong cuePoints cue := by
  obtain ⟨current, behind, joins⟩ :=
    exists_joins_iff cuePoints (follows cue (by simp))
  have elsewhere : ((placed current (early ++ [cue])).countP fun entry =>
      entry.1 = cue.position ∧ markerKey entry.2 = markerKey cue) = 0 := by
    rw [placed_of_follows follows, List.countP_eq_zero]
    intro entry member both
    obtain ⟨start, last, other⟩ := List.mem_flatMap.mp member
    obtain ⟨_, _, rfl⟩ := List.mem_map.mp other
    exact (behind start (Option.mem_toList.mp last)).ne
      (of_decide_eq_true both).1
  have own : 0 < (early ++ [cue]).countP fun other =>
      markerKey other = markerKey cue :=
    List.countP_pos_iff.mpr ⟨cue, by simp, by simp⟩
  have rest : ((placed (lastStart current (early ++ [cue])) late).countP
      fun entry => entry.1 = cue.position ∧ markerKey entry.2 = markerKey cue) ≤
      late.countP fun other => markerKey other = markerKey cue :=
    countP_placed_le_markers
  rw [joins, whole, List.append_cons, placed_append, List.countP_append,
    List.countP_append, elsewhere]
  omega

theorem mem_tied_iff {other : CuePoint} :
    other ∈ tied cuePoints position ↔
      other ∈ cuePoints ∧ other.position = position := by
  constructor
  · intro member
    refine ⟨?_, position_of_mem_tied member⟩
    rcases List.mem_append.mp member with header | marker
    · exact (List.mem_filter.mp header).1
    · exact (List.mem_filter.mp marker).1
  · rintro ⟨listed, at'⟩
    simp only [tied, List.mem_append, List.mem_filter, decide_eq_true_eq]
    exact (sortKey_cases at').imp (And.intro listed) (And.intro listed)

/-- Without a header at a position, the sort keeps the cues there as Ableton
lists them. -/
theorem tied_of_noHeader
    (noHeader : ¬HasHeader cuePoints position) :
    tied cuePoints position =
      cuePoints.filter fun cue => cue.position = position := by
  have headers : (cuePoints.filter fun cue =>
      sortKey cue = toLex (position, 0)) = [] := by
    rw [List.filter_eq_nil_iff]
    intro cue member header
    exact noHeader ⟨cue, member,
      sortKey_header_iff.mp (of_decide_eq_true header)⟩
  rw [tied, headers, List.nil_append]
  apply List.filter_congr
  intro cue member
  rw [decide_eq_decide, sortKey_eq_toLex_iff, and_iff_left_iff_imp]
  intro at'
  have other : ¬(songHeader? (Text.strip cue.name)).isSome = true :=
    fun header => noHeader ⟨cue, member, at', header⟩
  rw [if_neg other]

/-- The first of the cues at a position is a header if there is one. -/
theorem starts_of_hasHeader
    {first : CuePoint} {rest : List CuePoint}
    (header : HasHeader cuePoints position)
    (whole : tied cuePoints position = first :: rest) :
    startsSong first = true := by
  obtain ⟨cue, member, at', opens⟩ := header
  have nonempty : (cuePoints.filter fun cue =>
      sortKey cue = toLex (position, 0)) ≠ [] := by
    refine List.ne_nil_of_mem (List.mem_filter.mpr ⟨member, ?_⟩)
    exact decide_eq_true (sortKey_header_iff.mpr ⟨at', opens⟩)
  obtain ⟨head, tail, headers⟩ := List.exists_cons_of_ne_nil nonempty
  rw [tied, headers, List.cons_append] at whole
  obtain ⟨rfl, _⟩ := List.cons.inj whole
  have first : head ∈ cuePoints.filter fun cue =>
      sortKey cue = toLex (position, 0) := by
    rw [headers]
    exact List.mem_cons_self
  have opened := sortKey_header_iff.mp
    (of_decide_eq_true (List.mem_filter.mp first).2)
  rw [startsSong, opened.2, Bool.true_or]

/-- Every marker on a song start joins the song that starts there, exactly when
each has a header at its position or is listed after a song start there. -/
theorem tiesJoin_iff_startsListedFirst (cuePoints : List CuePoint) :
    TiesJoin cuePoints ↔ StartsListedFirst cuePoints := by
  constructor
  · intro joins early cue late split follows onStart
    by_contra neither
    obtain ⟨noHeader, noStart⟩ := not_or.mp neither
    have whole := tied_of_noHeader noHeader
    rw [split, List.filter_append,
      List.filter_cons_of_pos (by simp), ← split] at whole
    refine not_joins_of_before whole ?_ (joins cue ?_ follows onStart)
    · intro other member
      rcases List.mem_append.mp member with before | own
      · obtain ⟨inEarly, at'⟩ := List.mem_filter.mp before
        rw [← Bool.not_eq_true]
        exact fun starts =>
          noStart ⟨other, inEarly, of_decide_eq_true at', starts⟩
      · obtain rfl := List.mem_singleton.mp own
        exact follows
    · rw [split]
      exact List.mem_append_right _ List.mem_cons_self
  · intro listed cue member follows onStart
    obtain ⟨first, rest, whole⟩ := List.exists_cons_of_ne_nil
      (List.ne_nil_of_mem (mem_tied_iff.mpr ⟨member, rfl⟩))
    refine joins_of_starts follows whole ?_
    by_cases header : HasHeader cuePoints cue.position
    · exact starts_of_hasHeader header whole
    -- Otherwise the first cue there is not listed after a song start.
    rw [tied_of_noHeader header] at whole
    obtain ⟨early, late, split, before, at', _⟩ :=
      List.filter_eq_cons_iff.mp whole
    have same : first.position = cue.position := of_decide_eq_true at'
    by_contra other
    rcases listed early first late split (Bool.not_eq_true _ ▸ other)
      (by rwa [OnSongStart, same]) with here | ⟨start, inEarly, there, _⟩
    · rw [same] at here
      exact header here
    · exact before start inEarly (decide_eq_true (there.trans same))

/-- A marker that Ableton lists before the start keyword at its position stays
in the song before. -/
theorem not_tiesJoin_of_keywordListedLast :
    ¬TiesJoin [⟨"== Amazing Grace ==", 0⟩, ⟨"Verse", 8⟩, ⟨"Start", 8⟩] := by
  decide +kernel

end Parser
end AbletonTracks
