import AbletonTracks.Remote.Song
import AbletonTracks.Server.Control
import AbletonTracks.Server.Indices

/-!
# From a tap to a cue of Ableton

The song's handler lists its cue points, the bridge builds the songs from
them, and a jump goes back as an index.  The index leads to the cue that the
section stands for, in the very list that was sent.
-/

namespace AbletonTracks

open Library

/-- The cue point as the bridge decodes it. -/
def LiveCue.decoded (cue : LiveCue) : CuePoint := ⟨cue.name, cue.time⟩

/-- The cue is the one that a section of a song stands for: it lies at the
section and has its name, or is the header that the song opens with. -/
def LiveCue.StandsFor (cue : LiveCue) (song : Song) (target : Section) :
    Prop :=
  cue.time = target.position ∧
    (Text.strip cue.name = target.name ∨
      song.sections.head? = some target ∧ target.name = "Start" ∧
        Parser.songHeader? (Text.strip cue.name) = some song.name)

/-- A cue that lies where the section does and has its marker's name. -/
theorem LiveCue.standsFor_of_parsed
    {cues : List LiveCue} {song : Song} {target : Section} {index : Nat}
    (parsed : song.Parsed (cues.map LiveCue.decoded))
    (found : song.sections[index]? = some target) :
    ∃ cue, cues[target.cueIndex]? = some cue ∧ cue.StandsFor song target := by
  have listed : ∀ {decoded : CuePoint},
      (cues.map LiveCue.decoded)[target.cueIndex]? = some decoded →
      ∃ cue, cues[target.cueIndex]? = some cue ∧ cue.decoded = decoded := by
    intro decoded inList
    rw [List.getElem?_map] at inList
    exact Option.map_eq_some_iff.mp inList
  rcases Parser.heads_or_marks_of_parsed parsed found with
    ⟨rfl, start, decoded, inList, position, header⟩ |
      ⟨decoded, inList, position, name⟩
  · obtain ⟨cue, inCues, rfl⟩ := listed inList
    refine ⟨cue, inCues, position, Or.inr ⟨?_, start, header⟩⟩
    rw [List.head?_eq_getElem?, found]
  · obtain ⟨cue, inCues, rfl⟩ := listed inList
    exact ⟨cue, inCues, position, Or.inl name⟩

/-! ## The reply -/

/-- The bridge decodes the reply into the song's cue points. -/
theorem LiveSong.decodeCues_songGetCuePoints
    {song : LiveSong} {args : List OscArgument}
    (carried : List.Forall₂ OscValue.Carries song.songGetCuePoints args) :
    AbletonBridge.decodeCues args = song.cuePoints.map LiveCue.decoded := by
  unfold songGetCuePoints at carried
  generalize song.cuePoints = cues at carried ⊢
  induction cues generalizing args with
  | nil =>
      obtain rfl := List.forall₂_nil_left_iff.mp carried
      rfl
  | cons cue rest inductionHypothesis =>
      rw [List.flatMap_cons, List.cons_append, List.cons_append,
        List.nil_append] at carried
      obtain ⟨name, _, text, tail, rfl⟩ :=
        List.forall₂_cons_left_iff.mp carried
      obtain ⟨time, others, number, restCarried, rfl⟩ :=
        List.forall₂_cons_left_iff.mp tail
      have position := OscArgument.number?_of_float? number
      simp only [AbletonBridge.decodeCues, position,
        inductionHypothesis restCarried, List.map_cons, LiveCue.decoded,
        text.1]

namespace System

variable {s after : System} {event : Event}
  {steps : List (Step System Event)}

/-! ## The songs on show -/

/-- Only a reply with the cue points changes the songs, to its own. -/
theorem songs_of_exec
    (fits : s.Fits)
    (taken : s.exec event = some after) :
    after.ableton.state.songs = s.ableton.state.songs ∨
      ∃ now args,
        event = .ableton (.datagram now AbletonBridge.cuePointsAddress args) ∧
        after.ableton.state.songs =
          Parser.parseMarkers (AbletonBridge.decodeCues args) := by
  cases acts_of_exec fits taken with
  | asks _ ableton _ _ | orders _ _ ableton _ _ =>
      exact Or.inl (congrArg (fun bridge => bridge.state.songs) ableton)
  | stops _ ableton _ _ | accepts _ _ _ ableton _ _ _ =>
      exact Or.inl (congrArg (fun bridge => bridge.state.songs) ableton)
  | @lands event ws jump after _ ableton _ _ _ =>
      left
      obtain ⟨_, same⟩ := s.land_ableton ws jump
      rw [ableton, same]
  | @handles event after ableton _ _ =>
      have handled := s.ableton.handles event
      generalize s.ableton.handle event = result at handled ableton
      cases handled with
      | @cues now args =>
          rcases AbletonBridge.handleCuePoints_songs _ args with kept | rebuilt
          · left
            rw [ableton, kept]
          · exact Or.inr ⟨now, args, rfl, ableton ▸ rebuilt⟩
      | @position now isBeatBoundary args =>
          left
          rw [ableton]
          exact AbletonBridge.handleBeat_songs _ _ _
      | other _ _ same _ =>
          left
          rw [ableton]
          exact same.songs

/-- While the cue points in Ableton stay as they are, so do the songs. -/
theorem songs_of_run
    {song : LiveSong}
    (reachable : Reachable exec {} s)
    (shown : s.ableton.state.songs =
      Parser.parseMarkers (song.cuePoints.map LiveCue.decoded))
    (run : Run exec s steps after)
    (unchanged : ∀ step ∈ steps, ∀ now args,
      step.label = .ableton
        (.datagram now AbletonBridge.cuePointsAddress args) →
      List.Forall₂ OscValue.Carries song.songGetCuePoints args) :
    after.ableton.state.songs =
      Parser.parseMarkers (song.cuePoints.map LiveCue.decoded) := by
  refine run.conditionalInvariant
    (fun current => current.ableton.state.songs =
      Parser.parseMarkers (song.cuePoints.map LiveCue.decoded))
    (fun _ event => ∀ now args,
      event = .ableton (.datagram now AbletonBridge.cuePointsAddress args) →
      List.Forall₂ OscValue.Carries song.songGetCuePoints args)
    shown ?_ unchanged
  rintro current event next ⟨_, later⟩ same carried taken
  obtain ⟨_, earlier⟩ := reachable
  have fits := fits_of_reachable (earlier.append later).reachable
  rcases songs_of_exec fits taken with kept | ⟨now, args, reply, rebuilt⟩
  · rw [kept, same]
  · rw [rebuilt,
      LiveSong.decodeCues_songGetCuePoints (carried now args reply)]

/-! ## The whole way -/

/-- The step handles a reply with the cue points, and the songs are then those
of the reply. -/
def DecodesReply (step : Step System Event) (args : List OscArgument) :
    Prop :=
  (∃ now, step.label = .ableton
    (.datagram now AbletonBridge.cuePointsAddress args)) ∧
  step.after.ableton.Follows (AbletonBridge.decodeCues args)

/-- No step of the server comes between the songs and the cache. -/
theorem cacheFits_of_exec
    (fits : s.Fits)
    (cache : s.ableton.CacheFits)
    (taken : s.exec event = some after) :
    after.ableton.CacheFits := by
  cases acts_of_exec fits taken with
  | asks _ ableton _ _ | orders _ _ ableton _ _ => rwa [ableton]
  | stops _ ableton _ _ | accepts _ _ _ ableton _ _ _ =>
      rw [ableton]
      exact cache.congr rfl rfl (Or.inl rfl)
  | @lands event ws jump after _ ableton _ _ _ =>
      rw [ableton]
      obtain ⟨_, same⟩ := s.land_ableton ws jump
      rw [same]
      exact cache.congr rfl rfl (Or.inl rfl)
  | handles ableton _ _ =>
      rw [ableton]
      exact cache.handle _

theorem cacheFits_of_reachable
    (reachable : Reachable exec {} s) :
    s.ableton.CacheFits := by
  have both : s.Fits ∧ s.ableton.CacheFits := by
    refine reachable.invariant (fun s => s.Fits ∧ s.ableton.CacheFits)
      ⟨fits_initial, [], rfl, rfl, Or.inl rfl⟩ ?_
    rintro current event next ⟨fits, cache⟩ taken
    exact ⟨fits.exec taken, cacheFits_of_exec fits cache taken⟩
  exact both.2

/-- A reply that lists a cue point is decoded, also when it is the cached
one. -/
theorem decodesReply_of_ne_nil
    {step : Step System Event} {now : ℚ} {args : List OscArgument}
    (reachable : Reachable exec {} step.before)
    (taken : exec step.before step.label = some step.after)
    (replied : step.label = .ableton
      (.datagram now AbletonBridge.cuePointsAddress args))
    (listed : AbletonBridge.decodeCues args ≠ []) :
    DecodesReply step args := by
  refine ⟨⟨now, replied⟩, ?_⟩
  rw [replied] at taken
  have handled : step.after.ableton = ({ step.before.ableton with
      lastReceived := now }.handleCuePoints args).1 :=
    (handles_of_ableton taken).1
  have cache : AbletonBridge.CacheFits { step.before.ableton with
      lastReceived := now } :=
    (cacheFits_of_reachable reachable).congr rfl rfl (Or.inl rfl)
  rw [handled]
  refine (AbletonBridge.handleCuePoints_follows_iff cache).mpr ?_
  rintro ⟨empty, _⟩
  exact listed empty

/-- Whatever an index finds is in the list. -/
theorem getElem?_of_itemAt?
    {α : Type} {items : List α} {index : Int} {item : α}
    (found : itemAt? items index = some item) :
    ∃ position : Nat, items[position]? = some item := by
  unfold itemAt? at found
  split at found
  · exact ⟨_, found⟩
  · split at found
    · exact ⟨_, found⟩
    · cases found

/-- The song in Ableton lists its cue points, and the bridge decodes the reply
into songs; the primary taps a section, and the jump lands without a cue clip
after its broadcast.  As long as the list stays as it is, the jump leads to
the cue that the section stands for. -/
theorem jumpsTo_tapped
    {song : LiveSong} {args : List OscArgument}
    {ws : WebSocket} {songIndex sectionIndex : Int}
    {tapped : Song} {target : Section} {landed : Jump}
    {past listens sends future : List (Step System Event)}
    {reply tap landing : Step System Event}
    (run : Run exec {} (past ++ reply :: (listens ++ tap ::
      (sends ++ landing :: future))) s)
    (carried : List.Forall₂ OscValue.Carries song.songGetCuePoints args)
    (decoded : DecodesReply reply args)
    (unchanged : ∀ step ∈ listens, ∀ now args,
      step.label = .ableton
        (.datagram now AbletonBridge.cuePointsAddress args) →
      List.Forall₂ OscValue.Carries song.songGetCuePoints args)
    (taps : tap.label = .receive ws (.jump (some songIndex)
      (some sectionIndex)))
    (primary : tap.before.manager.primary = some ws)
    (shown : itemAt? tap.before.ableton.state.songs songIndex = some tapped)
    (listed : itemAt? tapped.sections sectionIndex = some target)
    (waits : ∀ step ∈ sends, ∀ landed,
      step.before.landsNow? step.label ≠ some (ws, landed))
    (lands : landing.before.landsNow? landing.label = some (ws, landed))
    (noClip : landing.before.ableton.cueClipForSection? target.name = none) :
    ∃ cue, newCommands landing =
        [(some ws, .cuePointJump target.cueIndex)] ∧
      song.songJumpToCuePoint [.int target.cueIndex] = some [cue] ∧
      cue.StandsFor tapped target := by
  obtain ⟨replyRun, replyTaken, rest⟩ := run.split
  obtain ⟨listenRun, tapTaken, rest⟩ := rest.split
  obtain ⟨sendRun, landTaken, _⟩ := rest.split
  have afterReply := replyRun.reachable.step replyTaken
  obtain ⟨_, pastRun⟩ := afterReply
  -- The songs on show are still those of the list.
  have songs : tap.before.ableton.state.songs =
      Parser.parseMarkers (song.cuePoints.map LiveCue.decoded) := by
    refine songs_of_run pastRun.reachable ?_ listenRun unchanged
    rw [decoded.2.1, LiveSong.decodeCues_songGetCuePoints carried]
  have found : sectionAt? tap.before.ableton.state songIndex sectionIndex =
      some target := by
    simp [sectionAt?, shown, listed]
  -- The jump that lands is the one that the tap began.
  rw [taps] at tapTaken
  have tapReachable := (pastRun.append listenRun).reachable
  have leads : landed.target = target := by
    rw [eq_jumpTo_of_lands tapReachable tapTaken primary found sendRun waits
      lands]
    rfl
  obtain ⟨_, tapRun⟩ := tapReachable.step tapTaken
  have landFits := fits_of_reachable (tapRun.append sendRun).reachable
  obtain ⟨_, commands⟩ := land_of_lands landFits landTaken lands
  -- Its target is a section of a song that was parsed from the list.
  obtain ⟨index, inSong⟩ := getElem?_of_itemAt? listed
  obtain ⟨_, inSongs⟩ := getElem?_of_itemAt? shown
  have parsed := Parser.parsed_of_mem_parseMarkers
    (songs ▸ List.mem_of_getElem? inSongs)
  obtain ⟨cue, inList, stands⟩ := LiveCue.standsFor_of_parsed parsed inSong
  refine ⟨cue, ?_, ?_, stands⟩
  · rcases landing.before.land_cases ws landed with
      ⟨track, clip, cueClip, _, _⟩ | ⟨_, jumps, _⟩
    · rw [leads, noClip] at cueClip
      cases cueClip
    · rw [leads] at jumps
      exact newCommands_of_append (commands.trans jumps)
  · rw [LiveSong.songJumpToCuePoint,
      itemAt?_of_nonneg (Int.natCast_nonneg _), Int.toNat_natCast, inList]
    rfl

/-- A song of two cue points, the later one first. -/
private def unsorted : LiveSong :=
  { cuePoints := [⟨"Verse", 8⟩, ⟨"== A ==", 0⟩] }

/-- The reply with its cue points. -/
private def unsortedReply : List OscArgument :=
  AbletonBridge.oneCueReply "Verse" 8 ++ AbletonBridge.oneCueReply "== A ==" 0

/-- The song that the bridge makes of it. -/
private def songOfUnsorted : Song :=
  ⟨"A", 0, [⟨"Start", 0, 1, false, some 8⟩, ⟨"Verse", 8, 0, false, none⟩]⟩

private theorem unsorted_carries :
    List.Forall₂ OscValue.Carries unsorted.songGetCuePoints unsortedReply := by
  refine .cons ⟨rfl, ?_⟩ (.cons rfl (.cons ⟨rfl, ?_⟩ (.cons rfl .nil)))
  · decide +kernel
  · decide +kernel

private def tapsVerse : List (Step System Event) → Bool
  | [_, _, _, _, _, tap, landing] => decide (
      tap.before.manager.primary = some ⟨0⟩ ∧
      tap.before.ableton.state.songs = [songOfUnsorted] ∧
      landing.before.landsNow? landing.label =
        some (⟨0⟩, ⟨⟨"Verse", 8, 0, false, none⟩, 4, 4⟩) ∧
      landing.before.ableton.cueClipForSection? "Verse" = none)
  | _ => false

/-- A tablet taps the verse, which Ableton lists first. -/
theorem jumpsTo_tapped_verse :
    ∃ steps s, replay exec {} [
        .ableton (.datagram 0 AbletonBridge.cuePointsAddress unsortedReply),
        .accept ⟨0⟩ stageTablet "c0", .resume (.handler ⟨0⟩) false,
        .resume (.handler ⟨0⟩) false, .resume (.handler ⟨0⟩) false,
        .receive ⟨0⟩ (.jump (some 0) (some 1)),
        .resume (.handler ⟨0⟩) false] = some (steps, s) ∧
      ∃ landing ∈ steps, ∃ cue,
        newCommands landing = [(some ⟨0⟩, .cuePointJump 0)] ∧
        unsorted.songJumpToCuePoint [.int 0] = some [cue] ∧
        cue.StandsFor songOfUnsorted ⟨"Verse", 8, 0, false, none⟩ := by
  have runs : (replay exec {} [
      .ableton (.datagram 0 AbletonBridge.cuePointsAddress unsortedReply),
      .accept ⟨0⟩ stageTablet "c0", .resume (.handler ⟨0⟩) false,
      .resume (.handler ⟨0⟩) false, .resume (.handler ⟨0⟩) false,
      .receive ⟨0⟩ (.jump (some 0) (some 1)),
      .resume (.handler ⟨0⟩) false]).map (fun result =>
        tapsVerse result.1) = some true := by
    decide +kernel
  obtain ⟨⟨steps, s⟩, replayed, facts⟩ := Option.map_eq_some_iff.mp runs
  have labels := labels_of_replay replayed
  have run := run_of_replay replayed
  refine ⟨steps, s, replayed, ?_⟩
  simp only [List.map_eq_cons_iff, List.map_eq_nil_iff] at labels
  obtain ⟨reply, _, rfl, replied, accept, _, rfl, accepted, first, _, rfl,
    firstGoesOn, second, _, rfl, secondGoesOn, third, _, rfl, thirdGoesOn,
    tap, _, rfl, taps, landing, _, rfl, _, rfl⟩ := labels
  simp only [tapsVerse, decide_eq_true_eq] at facts
  obtain ⟨primary, shown, lands, noClip⟩ := facts
  have whole : Run exec {} ([] ++ reply :: ([accept, first, second, third] ++
      tap :: ([] ++ landing :: []))) s := run
  obtain ⟨start, replyTaken, _⟩ := whole.split
  have decoded := decodesReply_of_ne_nil start.reachable replyTaken replied
    (by decide +kernel)
  have onShow : itemAt? tap.before.ableton.state.songs 0 =
      some songOfUnsorted := by
    rw [shown]
    rfl
  have listed : itemAt? songOfUnsorted.sections 1 =
      some ⟨"Verse", 8, 0, false, none⟩ := rfl
  have unchanged : ∀ step ∈ [accept, first, second, third], ∀ now args,
      step.label = .ableton
        (.datagram now AbletonBridge.cuePointsAddress args) →
      List.Forall₂ OscValue.Carries unsorted.songGetCuePoints args := by
    intro step member now args same
    simp only [List.mem_cons, List.not_mem_nil, or_false] at member
    rcases member with rfl | rfl | rfl | rfl
    · cases accepted.symm.trans same
    · cases firstGoesOn.symm.trans same
    · cases secondGoesOn.symm.trans same
    · cases thirdGoesOn.symm.trans same
  obtain ⟨cue, sends, jumps, stands⟩ := jumpsTo_tapped whole unsorted_carries
    decoded unchanged taps primary onShow listed (by simp) lands noClip
  exact ⟨landing, by simp, cue, sends, jumps, stands⟩

end System
end AbletonTracks
