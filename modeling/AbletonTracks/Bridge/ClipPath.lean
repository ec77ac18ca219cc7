import AbletonTracks.Bridge.Defs
import AbletonTracks.Library.Runs

/-!
# Looking up the path of the guide clip

`GET /guide_clip_path` and `analyze_guide_track` ask Ableton for the path of a
clip and wait for the reply.  Ableton answers every query, in the order of the
queries, but a reply does not say which one it answers, and all lookups share
the one field `_pending_clip_path`.  The reply goes to whatever future is in
there.
-/

namespace AbletonTracks

open Library

/-- A reply, with the lookup whose query it answers. -/
structure ClipPathReply where
  query : Nat
  path : String
  startBeat : ℚ
  deriving DecidableEq

/-- Where a lookup stands. -/
inductive Lookup
  /-- In `wait_for`, until its timeout; its future is pending. -/
  | waiting (timeout : ℚ)
  /-- Its future has a result. -/
  | resolved (reply : ClipPathReply)
  /-- `wait_for` has given up and cancelled the future. -/
  | expired
  /-- It has gone on with a reply, or without. -/
  | ended (reply : Option ClipPathReply)
  deriving DecidableEq

namespace Lookup

/-- The future is not done. -/
def waits : Lookup → Bool
  | .waiting _ => true
  | _ => false

/-- The reply that the lookup goes on with. -/
def reply? : Lookup → Option ClipPathReply
  | .resolved reply => some reply
  | .ended reply => reply
  | _ => none

end Lookup

/-- The lookups, numbered in the order in which they start. -/
structure ClipPathLookups where
  now : ℚ := 0
  /-- `_pending_clip_path`: the lookup whose future is in it. -/
  pendingClipPath : Option Nat := none
  lookups : Dict Nat Lookup := ∅
  /-- Queries that Ableton has not answered yet, oldest first. -/
  queries : List Nat := []
  nextLookup : Nat := 0
  deriving DecidableEq

namespace ClipPathLookups

variable (s : ClipPathLookups)

/-- The lookup waits for a reply. -/
def Waits (number : Nat) : Prop :=
  ∃ lookup ∈ s.lookups.get? number, lookup.waits = true

instance (number : Nat) : Decidable (s.Waits number) :=
  inferInstanceAs (Decidable (∃ _ ∈ s.lookups.get? number, _))

/-- The reply that a lookup has. -/
def reply? (number : Nat) : Option ClipPathReply :=
  (s.lookups.get? number).bind Lookup.reply?

/-- A lookup comes to stand somewhere else. -/
def become (number : Nat) (lookup : Lookup) : ClipPathLookups :=
  { s with lookups := s.lookups.insert number lookup }

/-- Store a new future, send the query and wait, both callers alike.  A send
that raises ends the lookup, and its future stays in the field. -/
def lookUp (sends : Bool) : ClipPathLookups :=
  { s with
    pendingClipPath := some s.nextLookup
    lookups := s.lookups.insert s.nextLookup
      (if sends then .waiting (s.now + 5) else .ended none)
    queries := if sends then s.queries ++ [s.nextLookup] else s.queries
    nextLookup := s.nextLookup + 1 }

/-- `guide_clip_path`, up to its wait. -/
def guideClipPath (sends : Bool) : ClipPathLookups := s.lookUp sends

/-- The first step of `analyze_guide_track`, up to its wait. -/
def analyzeGuideTrack (sends : Bool) : ClipPathLookups := s.lookUp sends

/-- The path and the start of a reply; `none` when the start is no number, so
that the handler raises. -/
def readClipPath? : List OscArgument → Option (String × ℚ)
  | [] => some ("", 0)
  | [path] => some (path.text, 0)
  | path :: start :: _ => start.number?.map fun beat => (path.text, beat)

/-- `_handle_guide_clip_path`, for the reply to a query. -/
def handleGuideClipPath (query : Nat) (args : List OscArgument) :
    ClipPathLookups :=
  match readClipPath? args, s.pendingClipPath with
  | some (path, startBeat), some number =>
      if s.Waits number then
        s.become number (.resolved ⟨query, path, startBeat⟩)
      else s
  | _, _ => s

/-- A lookup goes on after its wait; the `finally` empties the field. -/
def goOn (number : Nat) (reply : Option ClipPathReply) : ClipPathLookups :=
  { s.become number (.ended reply) with pendingClipPath := none }

/-! ## The machine -/

/-- What can happen to the lookups. -/
inductive Event
  | guideClipPath (sends : Bool)
  | analyzeGuideTrack (sends : Bool)
  /-- Ableton's reply to the oldest query. -/
  | reply (args : List OscArgument)
  /-- The timeout of a lookup is over while its future is pending. -/
  | expire (number : Nat)
  | goOn (number : Nat)
  | wait (time : ℚ)
  deriving DecidableEq

/-- The machine: the state an event leaves behind, or none when it cannot
happen. -/
def exec : Event → Option ClipPathLookups
  | .guideClipPath sends => some (s.guideClipPath sends)
  | .analyzeGuideTrack sends => some (s.analyzeGuideTrack sends)
  | .reply args =>
      match s.queries with
      | [] => none
      | query :: others =>
          some ({ s with queries := others }.handleGuideClipPath query args)
  | .expire number =>
      match s.lookups.get? number with
      | some (.waiting timeout) =>
          if timeout ≤ s.now then some (s.become number .expired) else none
      | _ => none
  | .goOn number =>
      match s.lookups.get? number with
      | some (.resolved reply) => some (s.goOn number (some reply))
      | some .expired => some (s.goOn number none)
      | _ => none
  | .wait time => if s.now ≤ time then some { s with now := time } else none

/-! ## Answers -/

/-- A reply has arrived while the lookup that asked for it was waiting. -/
def InTime (steps : List (Step ClipPathLookups Event)) (number : Nat) : Prop :=
  ∃ step ∈ steps, ∃ args, step.label = .reply args ∧
    step.before.queries.head? = some number ∧ step.before.Waits number

/-- No lookup has the reply to another one's query, and none whose reply
arrived in time is without it. -/
structure Answers
    (steps : List (Step ClipPathLookups Event))
    (s : ClipPathLookups) : Prop where
  own : ∀ number reply, s.reply? number = some reply → reply.query = number
  heard : ∀ number, InTime steps number → (s.reply? number).isSome

/-- A reply arrives, and the field does not hold the future of the lookup that
waits for it, or holds the one of another lookup that waits. -/
def Misdelivers (s : ClipPathLookups) : Event → Prop
  | .reply args =>
      ∃ query ∈ s.queries.head?,
        s.Waits query ∧
          (s.pendingClipPath ≠ some query ∨ readClipPath? args = none) ∨
        readClipPath? args ≠ none ∧
          ∃ number ∈ s.pendingClipPath, number ≠ query ∧ s.Waits number
  | _ => False

instance (event : Event) : Decidable (s.Misdelivers event) :=
  match event with
  | .reply _ => inferInstanceAs (Decidable (∃ _ ∈ s.queries.head?, _))
  | .guideClipPath _ | .analyzeGuideTrack _ | .expire _ | .goOn _ | .wait _ =>
      isFalse id

variable {s after : ClipPathLookups} {event : Event}
  {steps : List (Step ClipPathLookups Event)}

/-! ## One step -/

theorem reply?_become_self
    (s : ClipPathLookups)
    (number : Nat)
    (lookup : Lookup) :
    (s.become number lookup).reply? number = lookup.reply? := by
  rw [reply?, become, Dict.get?_insert_self, Option.bind_some]

theorem reply?_become_of_ne
    {number other : Nat}
    (different : other ≠ number)
    (lookup : Lookup) :
    (s.become number lookup).reply? other = s.reply? other := by
  simp only [reply?, become, Dict.get?_insert_of_ne _ different]

/-- A lookup that comes to stand elsewhere with the reply it has. -/
theorem reply?_become
    {number : Nat} {lookup : Lookup}
    (same : lookup.reply? = s.reply? number)
    (other : Nat) :
    (s.become number lookup).reply? other = s.reply? other := by
  by_cases own : other = number
  · rw [own, reply?_become_self, same]
  · exact reply?_become_of_ne own lookup

/-- A lookup that waits has no reply. -/
theorem reply?_of_waits
    {number : Nat}
    (waits : s.Waits number) :
    s.reply? number = none := by
  obtain ⟨lookup, stands, pending⟩ := waits
  rw [reply?, show s.lookups.get? number = some lookup from stands,
    Option.bind_some]
  cases lookup with
  | waiting timeout => rfl
  | resolved | expired | ended => cases pending

/-- Where a reply goes: to the waiting lookup whose future is in the field. -/
theorem reply?_handleGuideClipPath
    (s : ClipPathLookups)
    (query : Nat)
    (args : List OscArgument)
    (number : Nat) :
    (s.handleGuideClipPath query args).reply? number =
      if s.pendingClipPath = some number ∧ s.Waits number then
        (readClipPath? args).map fun read => ⟨query, read.1, read.2⟩
      else s.reply? number := by
  unfold handleGuideClipPath
  cases read : readClipPath? args with
  | none =>
      simp only [Option.map_none]
      split
      · rename_i both
        exact reply?_of_waits both.2
      · rfl
  | some read =>
      cases pending : s.pendingClipPath with
      | none => simp
      | some holder =>
          simp only [Option.some.injEq, Option.map_some]
          by_cases waits : s.Waits holder
          · rw [if_pos waits]
            by_cases own : number = holder
            · subst own
              rw [reply?_become_self, if_pos ⟨rfl, waits⟩]
              rfl
            · rw [reply?_become_of_ne own, if_neg]
              exact fun both => own both.1.symm
          · rw [if_neg waits, if_neg]
            rintro ⟨rfl, impossible⟩
            exact waits impossible

/-- A lookup keeps the reply it has or lacks, unless a reply comes. -/
theorem reply?_of_exec
    (fresh : s.lookups.get? s.nextLookup = none)
    (taken : s.exec event = some after)
    (quiet : ∀ args, event ≠ .reply args)
    (number : Nat) :
    after.reply? number = s.reply? number := by
  have starts : ∀ sends, (s.lookUp sends).reply? number =
      s.reply? number := by
    intro sends
    refine reply?_become ?_ number
    rw [reply?, fresh]
    cases sends <;> rfl
  cases event with
  | guideClipPath sends | analyzeGuideTrack sends =>
      obtain rfl := Option.some.inj taken
      exact starts sends
  | reply args => exact absurd rfl (quiet args)
  | expire holder =>
      simp only [exec] at taken
      split at taken
      · rename_i timeout stands
        split at taken
        · obtain rfl := Option.some.inj taken
          refine reply?_become ?_ number
          rw [reply?, stands]
          rfl
        · cases taken
      · cases taken
  | goOn holder =>
      simp only [exec] at taken
      split at taken
      · rename_i reply stands
        obtain rfl := Option.some.inj taken
        refine reply?_become ?_ number
        rw [reply?, stands]
        rfl
      · rename_i stands
        obtain rfl := Option.some.inj taken
        refine reply?_become ?_ number
        rw [reply?, stands]
        rfl
      · cases taken
  | wait time =>
      simp only [exec] at taken
      split at taken
      · obtain rfl := Option.some.inj taken
        rfl
      · cases taken

/-- A reply answers the oldest query. -/
theorem exec_reply
    {args : List OscArgument}
    (taken : s.exec (.reply args) = some after) :
    ∃ query others, s.queries = query :: others ∧
      after = { s with queries := others }.handleGuideClipPath query args := by
  simp only [exec] at taken
  split at taken
  · cases taken
  · rename_i query others asked
    exact ⟨query, others, asked, (Option.some.inj taken).symm⟩

/-! ## What a step does to the answers -/

/-- Only a lookup that has started stands somewhere. -/
def Numbered (s : ClipPathLookups) : Prop :=
  ∀ number lookup, s.lookups.get? number = some lookup →
    number < s.nextLookup

theorem Numbered.fresh (numbered : s.Numbered) :
    s.lookups.get? s.nextLookup = none := by
  cases stands : s.lookups.get? s.nextLookup with
  | none => rfl
  | some lookup => exact absurd (numbered _ _ stands) (Nat.lt_irrefl _)

theorem Numbered.become
    {number : Nat} {before : Lookup}
    (numbered : s.Numbered)
    (stands : s.lookups.get? number = some before)
    (lookup : Lookup) :
    (s.become number lookup).Numbered := by
  intro other later found
  by_cases own : other = number
  · rw [own]
    exact numbered number before stands
  · rw [ClipPathLookups.become, Dict.get?_insert_of_ne _ own] at found
    exact numbered other later found

theorem Numbered.lookUp (numbered : s.Numbered) (sends : Bool) :
    (s.lookUp sends).Numbered := by
  intro other lookup found
  by_cases own : other = s.nextLookup
  · rw [own]
    exact Nat.lt_succ_self _
  · rw [ClipPathLookups.lookUp, Dict.get?_insert_of_ne _ own] at found
    exact Nat.lt_succ_of_lt (numbered other lookup found)

theorem Numbered.handleGuideClipPath
    (numbered : s.Numbered)
    (query : Nat)
    (args : List OscArgument) :
    (s.handleGuideClipPath query args).Numbered := by
  unfold ClipPathLookups.handleGuideClipPath
  split
  · split
    · rename_i waits
      obtain ⟨lookup, stands, _⟩ := waits
      exact numbered.become stands _
    · exact numbered
  · exact numbered

theorem Numbered.exec
    (numbered : s.Numbered)
    (taken : s.exec event = some after) :
    after.Numbered := by
  cases event with
  | guideClipPath sends | analyzeGuideTrack sends =>
      obtain rfl := Option.some.inj taken
      exact numbered.lookUp sends
  | reply args =>
      obtain ⟨query, others, _, rfl⟩ := exec_reply taken
      have kept : Numbered { s with queries := others } := numbered
      exact kept.handleGuideClipPath query args
  | expire number =>
      simp only [ClipPathLookups.exec] at taken
      split at taken
      · rename_i timeout stands
        split at taken
        · obtain rfl := Option.some.inj taken
          exact numbered.become stands _
        · cases taken
      · cases taken
  | goOn number =>
      simp only [ClipPathLookups.exec] at taken
      split at taken
      · rename_i reply stands
        obtain rfl := Option.some.inj taken
        exact numbered.become stands _
      · rename_i stands
        obtain rfl := Option.some.inj taken
        exact numbered.become stands _
      · cases taken
  | wait time =>
      simp only [ClipPathLookups.exec] at taken
      split at taken
      · obtain rfl := Option.some.inj taken
        exact numbered
      · cases taken

/-- A reply in time is one of the steps before or comes in the last step. -/
theorem inTime_snoc
    {past : List (Step ClipPathLookups Event)}
    {step : Step ClipPathLookups Event}
    {number : Nat} :
    InTime (past ++ [step]) number ↔
      InTime past number ∨
        ∃ args, step.label = .reply args ∧
          step.before.queries.head? = some number ∧
          step.before.Waits number := by
  simp [InTime, or_and_right, exists_or]

/-- A step that delivers no reply wrongly keeps the answers. -/
theorem Answers.snoc
    {past : List (Step ClipPathLookups Event)}
    (answers : Answers past s)
    (numbered : s.Numbered)
    (taken : s.exec event = some after)
    (delivers : ¬s.Misdelivers event) :
    Answers (past ++ [⟨s, event, after⟩]) after := by
  by_cases replies : ∃ args, event = .reply args
  · obtain ⟨args, rfl⟩ := replies
    obtain ⟨query, others, asked, rfl⟩ := exec_reply taken
    have head : s.queries.head? = some query := by rw [asked]; rfl
    have goes := reply?_handleGuideClipPath { s with queries := others }
      query args
    constructor
    · intro number reply found
      rw [goes] at found
      split at found
      · rename_i holds
        obtain ⟨read, reads, rfl⟩ := Option.map_eq_some_iff.mp found
        by_contra foreign
        refine delivers ⟨query, head, Or.inr ⟨?_, number, holds.1, ?_⟩⟩
        · simp [reads]
        · exact ⟨Ne.symm foreign, holds.2⟩
      · exact answers.own number reply found
    · intro number inTime
      rw [goes]
      rcases inTime_snoc.mp inTime with earlier | ⟨_, _, asks, waits⟩
      · have known := answers.heard number earlier
        rw [if_neg]
        · exact known
        · rintro ⟨_, waits⟩
          have nothing := reply?_of_waits (s := s) waits
          rw [nothing] at known
          cases known
      · obtain rfl : query = number := Option.some.inj (head.symm.trans asks)
        have delivered : s.pendingClipPath = some query ∧
            readClipPath? args ≠ none := by
          by_contra lost
          refine delivers ⟨query, head, Or.inl ⟨waits, ?_⟩⟩
          by_contra neither
          rw [not_or, not_not] at neither
          exact lost neither
        rw [if_pos ⟨delivered.1, waits⟩, Option.isSome_map]
        exact Option.isSome_iff_ne_none.mpr delivered.2
  · rw [not_exists] at replies
    have same := reply?_of_exec numbered.fresh taken replies
    constructor
    · intro number reply found
      rw [same] at found
      exact answers.own number reply found
    · intro number inTime
      rw [same]
      rcases inTime_snoc.mp inTime with earlier | ⟨args, isReply, _⟩
      · exact answers.heard number earlier
      · exact absurd isReply (replies args)

/-- A reply that is delivered wrongly leaves a lookup without its reply, or
with another one's. -/
theorem not_answers_of_misdelivers
    {past : List (Step ClipPathLookups Event)}
    (taken : s.exec event = some after)
    (wrong : s.Misdelivers event) :
    ¬Answers (past ++ [⟨s, event, after⟩]) after := by
  intro answers
  cases event with
  | reply args =>
      obtain ⟨query, others, asked, rfl⟩ := exec_reply taken
      have goes := reply?_handleGuideClipPath { s with queries := others }
        query args
      obtain ⟨asker, head, wrong⟩ := wrong
      obtain rfl : query = asker := by
        rw [asked] at head
        exact Option.some.inj head
      rcases wrong with ⟨waits, lost⟩ | ⟨reads, number, holds, foreign, waits⟩
      · have heard := answers.heard query
          (inTime_snoc.mpr (Or.inr ⟨args, rfl, head, waits⟩))
        rw [goes] at heard
        split at heard
        · rename_i holds
          rcases lost with elsewhere | unread
          · exact elsewhere holds.1
          · rw [unread] at heard
            cases heard
        · rw [show ClipPathLookups.reply? { s with queries := others } query =
            none from reply?_of_waits (s := s) waits] at heard
          cases heard
      · obtain ⟨read, reads⟩ := Option.ne_none_iff_exists'.mp reads
        refine foreign (answers.own number ⟨query, read.1, read.2⟩ ?_).symm
        rw [goes, if_pos ⟨holds, waits⟩, reads]
        rfl
  | _ => exact wrong

/-! ## Whole runs -/

theorem numbered_of_reachable
    (reachable : Reachable exec {} s) :
    s.Numbered := by
  refine reachable.invariant Numbered ?_ ?_
  · intro number lookup stands
    rw [Dict.get?_empty] at stands
    cases stands
  · intro current event next numbered taken
    exact numbered.exec taken

/-- In every run no lookup loses or swaps its answer, exactly when no reply is
delivered wrongly. -/
theorem answers_iff_not_misdelivers
    (run : Run exec {} steps s) :
    (∀ past step future, steps = past ++ step :: future →
      Answers (past ++ [step]) step.after) ↔
    ∀ step ∈ steps, ¬step.before.Misdelivers step.label := by
  constructor
  · intro answers step member wrong
    obtain ⟨past, future, rfl⟩ := List.append_of_mem member
    exact not_answers_of_misdelivers (run.taken_of_mem member) wrong
      (answers past step future rfl)
  · intro delivers
    refine run.conditionalHistoryInvariant_after Answers
      (fun _ step => ¬step.before.Misdelivers step.label) ?_ ?_ ?_
    · refine ⟨fun number reply found => ?_, fun number inTime => ?_⟩
      · rw [reply?, Dict.get?_empty] at found
        cases found
      · obtain ⟨step, impossible, _⟩ := inTime
        cases impossible
    · intro past current event next pastRun answers delivered taken
      exact answers.snoc (numbered_of_reachable pastRun.reachable) taken
        delivered
    · rintro past step future rfl
      exact delivers step (by simp)

/-- The reply with the path of a clip at the start of the arrangement. -/
private def clipAt (path : String) : Event :=
  .reply [⟨path, none, none, true, false⟩,
    ⟨"0.0", some (.finite 0), some 0, false, false⟩]

/-- A lookup times out before its reply comes, and the next one gets its
own. -/
theorem answers_iff_not_misdelivers_late :
    ∃ steps s, replay exec {} [.guideClipPath true, .wait 5, .expire 0,
        .goOn 0, clipAt "guide.wav", .analyzeGuideTrack true,
        clipAt "click.wav", .goOn 1] = some (steps, s) ∧
      s.lookups.get? 1 = some (.ended (some ⟨1, "click.wav", 0⟩)) ∧
      ∀ past step future, steps = past ++ step :: future →
        Answers (past ++ [step]) step.after := by
  have runs : (replay exec {} [.guideClipPath true, .wait 5, .expire 0,
      .goOn 0, clipAt "guide.wav", .analyzeGuideTrack true,
      clipAt "click.wav", .goOn 1]).map (fun result => decide (
        result.2.lookups.get? 1 =
          some (.ended (some ⟨1, "click.wav", 0⟩)) ∧
        ∀ step ∈ result.1, ¬step.before.Misdelivers step.label)) =
      some true := by
    decide +kernel
  obtain ⟨⟨steps, s⟩, replayed, facts⟩ := Option.map_eq_some_iff.mp runs
  obtain ⟨answered, delivers⟩ := of_decide_eq_true facts
  exact ⟨steps, s, replayed, answered,
    (answers_iff_not_misdelivers (run_of_replay replayed)).mpr delivers⟩

/-- A guide is analyzed while the path of another clip is looked up: it goes
on with the other clip, and the lookup times out although its reply has
come. -/
theorem not_answers_of_overlap :
    ∃ steps s, replay exec {} [.guideClipPath true, .analyzeGuideTrack true,
        clipAt "guide.wav", .goOn 1, clipAt "click.wav", .wait 5, .expire 0,
        .goOn 0] = some (steps, s) ∧
      s.lookups.get? 1 = some (.ended (some ⟨0, "guide.wav", 0⟩)) ∧
      s.lookups.get? 0 = some (.ended none) ∧
      ¬∀ past step future, steps = past ++ step :: future →
        Answers (past ++ [step]) step.after := by
  have runs : (replay exec {} [.guideClipPath true, .analyzeGuideTrack true,
      clipAt "guide.wav", .goOn 1, clipAt "click.wav", .wait 5, .expire 0,
      .goOn 0]).map (fun result => decide (
        result.2.lookups.get? 1 =
          some (.ended (some ⟨0, "guide.wav", 0⟩)) ∧
        result.2.lookups.get? 0 = some (.ended none) ∧
        ∃ step ∈ result.1, step.before.Misdelivers step.label)) =
      some true := by
    decide +kernel
  obtain ⟨⟨steps, s⟩, replayed, facts⟩ := Option.map_eq_some_iff.mp runs
  obtain ⟨swapped, lost, step, member, wrong⟩ := of_decide_eq_true facts
  refine ⟨steps, s, replayed, swapped, lost, fun answers => ?_⟩
  have run := run_of_replay replayed
  obtain ⟨past, future, rfl⟩ := List.append_of_mem member
  exact not_answers_of_misdelivers (run.taken_of_mem member) wrong
    (answers past step future rfl)

end ClipPathLookups
end AbletonTracks
