import AbletonTracks.Osc.Message

/-!
# OSC bundles

`pythonosc/osc_bundle.py` and `pythonosc/osc_bundle_builder.py`: a date and
contents, each with its size in front.  The size is a signed number, and the
parser steps over it whatever its sign, so that it may step back and read the
same bytes for ever: how deep the calls and the depth after them nest is
counted, and `none` says that the depth did not do.
-/

namespace AbletonTracks

open Library

/-- What a bundle holds. -/
inductive OscContent
  | message (m : OscMessage)
  | bundle (dgram : List UInt8) (timestamp : ℚ) (contents : List OscContent)

/-- The datagram from which it was parsed. -/
def OscContent.dgram : OscContent → List UInt8
  | .message m => m.dgram
  | .bundle dgram _ _ => dgram

/-- What parsing returns, unless the depth does not do. -/
abbrev Bounded (β : Type) := Option (Except OscError β)

namespace OscBundle

open OscTypes

/-- `_BUNDLE_PREFIX`. -/
def bundlePrefix : List UInt8 := utf8 "#bundle" ++ [0]

/-- `dgram_is_bundle`. -/
def dgramIsBundle (dgram : List UInt8) : Bool :=
  bundlePrefix.isPrefixOf dgram

/-- What becomes of an error while contents are parsed; that of a bundle among
them is a class of its own and goes on as it is. -/
def caught : OscError → OscError
  | .typesParse | .messageParse => .bundleParse
  | failure => failure

/-- `OscBundle(dgram)`, given what parses its contents. -/
def bundleWith
    (contents : List UInt8 → Int → Bounded (List OscContent))
    (dgram : List UInt8) : Bounded OscContent :=
  match getDate dgram bundlePrefix.length with
  | .error _ => some (.error .bundleParse)
  | .ok (timestamp, index) =>
      (contents dgram index).map fun parsed =>
        parsed.map (OscContent.bundle dgram timestamp)

/-- A content, given what parses those of a bundle; nothing is appended for
one that is neither a bundle nor a message. -/
def contentWith
    (contents : List UInt8 → Int → Bounded (List OscContent))
    (dgram : List UInt8) : Bounded (List OscContent) :=
  if dgramIsBundle dgram then
    (bundleWith contents dgram).map fun parsed =>
      parsed.map fun content => [content]
  else if OscMessage.dgramIsMessage dgram then
    some ((OscMessage.parse dgram).map fun m => [.message m])
  else some (.ok [])

/-- `_parse_contents`.  A content is parsed one deeper than its size is read,
and so is what follows it. -/
def parseContents : Nat → List UInt8 → Int → Bounded (List OscContent)
  | 0, _, _ => none
  | depth + 1, dgram, index =>
      if sliceFrom dgram index = [] then some (.ok [])
      else
        match getInt dgram index with
        | .error failure => some (.error (caught failure))
        | .ok (contentSize, start) =>
            let content := slice dgram start (start + contentSize)
            match contentWith (parseContents depth) content with
            | none => none
            | some (.error failure) => some (.error (caught failure))
            | some (.ok own) =>
                (parseContents depth dgram (start + contentSize)).map
                  fun parsed => parsed.map fun others => own ++ others

/-- `OscBundle(dgram)`. -/
def parse (depth : Nat) (dgram : List UInt8) : Bounded OscContent :=
  bundleWith (parseContents depth) dgram

end OscBundle

namespace OscBundleBuilder

open OscTypes OscMessageBuilder

/-- One round of the loop of `build`. -/
def writeContent (content : OscContent) : Except OscError (List UInt8) :=
  (orBuildError (writeInt content.dgram.length)).map fun size =>
    size ++ content.dgram

/-- The loop of `build`. -/
def writeContents : List OscContent → Except OscError (List UInt8) :=
  writeAll writeContent

/-- The datagram that `build` parses. -/
def dgram
    (timestamp : ℚ)
    (contents : List OscContent) : Except OscError (List UInt8) :=
  match writeDate timestamp with
  | none => .error .struct
  | some date =>
      (writeContents contents).map fun body =>
        OscBundle.bundlePrefix ++ (date ++ body)

/-- `build`. -/
def build
    (depth : Nat)
    (timestamp : ℚ)
    (contents : List OscContent) : Bounded OscContent :=
  match dgram timestamp contents with
  | .error failure => some (.error failure)
  | .ok dgram => OscBundle.parse depth dgram

end OscBundleBuilder

/-! ## More depth -/

namespace OscBundle

open OscTypes

variable {depth : Nat} {dgram : List UInt8} {index : Int}

/-- A content that is parsed is parsed as well by what does at least as
much. -/
theorem contentWith_mono
    {contents more : List UInt8 → Int → Bounded (List OscContent)}
    {result : Except OscError (List OscContent)}
    (grows : ∀ index result, contents dgram index = some result →
      more dgram index = some result)
    (parsed : contentWith contents dgram = some result) :
    contentWith more dgram = some result := by
  unfold contentWith bundleWith at parsed ⊢
  split at parsed
  · rename_i bundle
    rw [if_pos bundle]
    split at parsed
    · exact parsed
    · obtain ⟨_, inner, rfl⟩ := Option.map_eq_some_iff.mp parsed
      obtain ⟨_, within, rfl⟩ := Option.map_eq_some_iff.mp inner
      rw [grows _ _ within]
      rfl
  · rename_i noBundle
    rw [if_neg noBundle]
    exact parsed

theorem parseContents_add
    {result : Except OscError (List OscContent)}
    (parsed : parseContents depth dgram index = some result)
    (more : Nat) :
    parseContents (depth + more) dgram index = some result := by
  induction depth generalizing dgram index result with
  | zero => cases parsed
  | succ depth inductionHypothesis =>
      rw [Nat.succ_add, parseContents]
      rw [parseContents] at parsed
      split at parsed
      · rename_i finished
        rw [if_pos finished]
        exact parsed
      · rename_i unfinished
        rw [if_neg unfinished]
        split at parsed
        · exact parsed
        · dsimp only at parsed ⊢
          split at parsed
          · cases parsed
          · rename_i failed
            rw [contentWith_mono (fun _ _ => inductionHypothesis) failed]
            exact parsed
          · rename_i own
            obtain ⟨_, others, rfl⟩ := Option.map_eq_some_iff.mp parsed
            rw [contentWith_mono (fun _ _ => inductionHypothesis) own]
            dsimp only
            rw [inductionHypothesis others]
            rfl

theorem parseContents_of_le
    {many : Nat} {result : Except OscError (List OscContent)}
    (parsed : parseContents depth dgram index = some result)
    (le : depth ≤ many) :
    parseContents many dgram index = some result := by
  obtain ⟨more, rfl⟩ := Nat.exists_eq_add_of_le le
  exact parseContents_add parsed more

/-! ## One content after the other -/

/-- A content with its size in front is one round. -/
theorem parseContents_written
    {size : List UInt8}
    (before content rest : List UInt8)
    (sized : writeInt content.length = some size)
    (depth : Nat) :
    parseContents (depth + 1) (before ++ (size ++ (content ++ rest)))
        before.length =
      match contentWith (parseContents depth) content with
      | none => none
      | some (.error failure) => some (.error (caught failure))
      | some (.ok own) =>
          (parseContents depth (before ++ (size ++ (content ++ rest)))
            (before ++ (size ++ content)).length).map
              fun parsed => parsed.map fun others => own ++ others := by
  have four := length_of_writeInt sized
  have more : sliceFrom (before ++ (size ++ (content ++ rest)))
      before.length ≠ [] := by
    rw [sliceFrom_append]
    exact List.append_ne_nil_of_left_ne_nil
      (List.ne_nil_of_length_pos (by omega)) _
  have read := getInt_written sized before (content ++ rest)
  have within := slice_append (before ++ size) content rest
  have after : ((before ++ (size ++ content)).length : Int) =
      before.length + size.length + content.length := by
    rw [List.length_append, List.length_append]
    omega
  rw [List.length_append, Int.natCast_add, List.append_assoc] at within
  rw [parseContents, if_neg more, read]
  dsimp only
  rw [within, after]

end OscBundle

/-! ## What comes out of a bundle -/

namespace OscContent

/-- What the class of a content makes of its datagram is the content. -/
def Parsed : OscContent → Prop
  | .message m => OscMessage.parse m.dgram = .ok m
  | .bundle dgram timestamp contents => ∃ depth,
      OscBundle.parse depth dgram =
        some (.ok (.bundle dgram timestamp contents))

/-- The datagram begins as one of its class does. -/
def Recognised : OscContent → Prop
  | .message m => OscMessage.dgramIsMessage m.dgram = true
  | .bundle dgram _ _ => OscBundle.dgramIsBundle dgram = true

end OscContent

namespace OscBundle

open OscTypes

theorem not_dgramIsBundle
    {dgram : List UInt8}
    (isMessage : OscMessage.dgramIsMessage dgram = true) :
    dgramIsBundle dgram = false := by
  cases dgram with
  | nil => rfl
  | cons byte rest =>
      have slash : utf8 "/" = [47] := by decide +kernel
      have hash : bundlePrefix = [35, 98, 117, 110, 100, 108, 101, 0] := by
        decide +kernel
      rw [OscMessage.dgramIsMessage, slash, List.isPrefixOf_cons_cons,
        Bool.and_eq_true, beq_iff_eq] at isMessage
      rw [dgramIsBundle, hash, List.isPrefixOf_cons_cons, ← isMessage.1]
      rfl

/-- A content that is recognised is found again. -/
theorem exists_contentWith
    {content : OscContent}
    (parsed : content.Parsed)
    (recognised : content.Recognised) :
    ∃ depth, contentWith (parseContents depth) content.dgram =
      some (.ok [content]) := by
  cases content with
  | message m =>
      refine ⟨0, ?_⟩
      change OscMessage.parse m.dgram = .ok m at parsed
      change OscMessage.dgramIsMessage m.dgram = true at recognised
      rw [contentWith, OscContent.dgram, not_dgramIsBundle recognised,
        if_neg Bool.false_ne_true, if_pos recognised, parsed]
      rfl
  | bundle dgram timestamp contents =>
      obtain ⟨depth, parsed⟩ := parsed
      refine ⟨depth, ?_⟩
      change OscBundle.dgramIsBundle dgram = true at recognised
      rw [parse] at parsed
      rw [contentWith, OscContent.dgram, if_pos recognised, parsed]
      rfl

/-- At most one content is found, and what is found was recognised. -/
theorem of_contentWith
    {contents : List UInt8 → Int → Bounded (List OscContent)}
    {dgram : List UInt8} {own : List OscContent}
    (parsed : contentWith contents dgram = some (.ok own)) :
    own = [] ∨ ∃ content, own = [content] ∧ content.Recognised := by
  unfold contentWith at parsed
  split at parsed
  · rename_i isBundle
    unfold bundleWith at parsed
    split at parsed
    · cases parsed
    · obtain ⟨inner, within, same⟩ := Option.map_eq_some_iff.mp parsed
      obtain ⟨found, _, rfl⟩ := Option.map_eq_some_iff.mp within
      cases found with
      | error failure => cases same
      | ok found =>
          obtain rfl := Except.ok.inj same
          exact .inr ⟨_, rfl, isBundle⟩
  · split at parsed
    · rename_i isMessage
      have same := Option.some.inj parsed
      cases found : OscMessage.parse dgram with
      | error failure =>
          rw [found] at same
          cases same
      | ok m =>
          rw [found] at same
          obtain rfl := Except.ok.inj same
          have whole : m.dgram = dgram := by
            unfold OscMessage.parse at found
            split at found
            · cases found
            · obtain rfl := Except.ok.inj found
              rfl
          refine .inr ⟨.message m, rfl, ?_⟩
          rw [OscContent.Recognised, whole]
          exact isMessage
    · obtain rfl := Except.ok.inj (Option.some.inj parsed)
      exact .inl rfl

end OscBundle

namespace OscBundleBuilder

open OscTypes OscMessageBuilder OscBundle

theorem writeContents_cons_eq_ok
    {content : OscContent} {rest : List OscContent} {body : List UInt8} :
    writeContents (content :: rest) = .ok body ↔
      ∃ size others, writeInt content.dgram.length = some size ∧
        writeContents rest = .ok others ∧
        body = size ++ (content.dgram ++ others) := by
  rw [writeContents, writeAll_cons_eq_ok, writeContent]
  constructor
  · rintro ⟨own, others, wrote, wroteRest, rfl⟩
    obtain ⟨size, sized, rfl⟩ := map_eq_ok.mp wrote
    exact ⟨size, others, orBuildError_eq_ok.mp sized, wroteRest,
      List.append_assoc _ _ _⟩
  · rintro ⟨size, others, sized, wroteRest, rfl⟩
    refine ⟨_, others, ?_, wroteRest, (List.append_assoc _ _ _).symm⟩
    rw [orBuildError_eq_ok.mpr sized]
    rfl

/-- Contents that are recognised are parsed again, in their order. -/
theorem exists_parseContents
    {contents : List OscContent} {body : List UInt8}
    (wrote : writeContents contents = .ok body)
    (parsed : ∀ content ∈ contents, content.Parsed)
    (recognised : ∀ content ∈ contents, content.Recognised)
    (before : List UInt8) :
    ∃ depth, parseContents depth (before ++ body) before.length =
      some (.ok contents) := by
  induction contents generalizing body before with
  | nil =>
      obtain rfl := Except.ok.inj wrote
      refine ⟨1, ?_⟩
      rw [parseContents, if_pos (sliceFrom_append before [])]
  | cons content rest inductionHypothesis =>
      obtain ⟨size, others, sized, wroteRest, rfl⟩ :=
        writeContents_cons_eq_ok.mp wrote
      rw [List.forall_mem_cons] at parsed recognised
      obtain ⟨few, own⟩ := exists_contentWith parsed.1 recognised.1
      obtain ⟨many, later⟩ := inductionHypothesis wroteRest parsed.2
        recognised.2 (before ++ (size ++ content.dgram))
      refine ⟨few + many + 1, ?_⟩
      have enough := contentWith_mono (fun _ _ within =>
        parseContents_add within many) own
      have lasting := parseContents_of_le later (Nat.le_add_left many few)
      rw [List.append_assoc, List.append_assoc] at lasting
      rw [parseContents_written before _ _ sized, enough]
      dsimp only
      rw [lasting]
      rfl

/-- As many contents are parsed as were written, at most; and when they are
the same, each was recognised. -/
theorem recognised_of_parseContents
    {contents parsed : List OscContent} {body before : List UInt8}
    {depth : Nat}
    (wrote : writeContents contents = .ok body)
    (found : parseContents depth (before ++ body) before.length =
      some (.ok parsed)) :
    parsed.length ≤ contents.length ∧
      (parsed = contents → ∀ content ∈ contents, content.Recognised) := by
  induction contents generalizing parsed body before depth with
  | nil =>
      obtain rfl := Except.ok.inj wrote
      cases depth with
      | zero => cases found
      | succ depth =>
          rw [parseContents, if_pos (sliceFrom_append before [])] at found
          obtain rfl := Except.ok.inj (Option.some.inj found)
          exact ⟨le_rfl, fun _ _ member => (List.not_mem_nil member).elim⟩
  | cons content rest inductionHypothesis =>
      obtain ⟨size, others, sized, wroteRest, rfl⟩ :=
        writeContents_cons_eq_ok.mp wrote
      cases depth with
      | zero => cases found
      | succ depth =>
          rw [parseContents_written before _ _ sized] at found
          split at found
          · cases found
          · cases found
          · rename_i own contentFound
            obtain ⟨later, laterFound, same⟩ :=
              Option.map_eq_some_iff.mp found
            cases later with
            | error failure => cases same
            | ok later =>
                obtain rfl := Except.ok.inj same
                have whole : before ++ (size ++ (content.dgram ++ others)) =
                    before ++ (size ++ content.dgram) ++ others := by
                  simp only [List.append_assoc]
                rw [whole] at laterFound
                obtain ⟨fewer, recognised⟩ :=
                  inductionHypothesis wroteRest laterFound
                rw [List.length_append, List.length_cons]
                obtain rfl | ⟨first, rfl, isRecognised⟩ :=
                  of_contentWith contentFound
                · refine ⟨by simpa using fewer.trans (Nat.le_succ _), ?_⟩
                  intro same
                  change later = content :: rest at same
                  rw [same, List.length_cons] at fewer
                  omega
                · refine ⟨by simp only [List.length_singleton]; omega, ?_⟩
                  intro same
                  obtain ⟨rfl, rfl⟩ := List.cons.inj same
                  exact List.forall_mem_cons.mpr
                    ⟨isRecognised, recognised rfl⟩

theorem exists_writeContents_iff {contents : List OscContent} :
    (∃ body, writeContents contents = .ok body) ↔
      ∀ content ∈ contents, content.dgram.length < 2 ^ 31 := by
  induction contents with
  | nil => exact ⟨fun _ _ member => (List.not_mem_nil member).elim,
      fun _ => ⟨[], rfl⟩⟩
  | cons content rest inductionHypothesis =>
      rw [List.forall_mem_cons, ← inductionHypothesis]
      simp only [writeContents_cons_eq_ok]
      constructor
      · rintro ⟨_, size, others, sized, wrote, rfl⟩
        rw [writeInt, Option.ite_none_right_eq_some] at sized
        exact ⟨by omega, others, wrote⟩
      · rintro ⟨short, others, wrote⟩
        have inRange : -2 ^ 31 ≤ (content.dgram.length : Int) ∧
            (content.dgram.length : Int) < 2 ^ 31 := by omega
        exact ⟨_, _, others, if_pos inRange, wrote, rfl⟩

/-- After the date come the contents. -/
theorem parse_written
    {timestamp : ℚ} {date : List UInt8}
    (dated : writeDate timestamp = some date) :
    ∃ systemTime, ∀ depth body,
      parse depth (bundlePrefix ++ (date ++ body)) =
        (parseContents depth (bundlePrefix ++ date ++ body)
          (bundlePrefix ++ date).length).map fun parsed =>
            parsed.map (.bundle (bundlePrefix ++ (date ++ body)) systemTime) := by
  obtain ⟨systemTime, read⟩ := getDate_written (length_of_writeDate dated)
  refine ⟨systemTime, fun depth body => ?_⟩
  rw [parse, bundleWith, read, List.append_assoc, List.length_append,
    Int.natCast_add]

/-- The contents of a bundle come out of it, all of them and in their order,
exactly when its date and their sizes can be written, and each begins as its
class does. -/
theorem build_eq_ok_iff
    (timestamp : ℚ)
    (contents : List {content : OscContent // content.Parsed}) :
    (∃ depth dgram systemTime,
      build depth timestamp (contents.map Subtype.val) =
        some (.ok (.bundle dgram systemTime (contents.map Subtype.val)))) ↔
    (writeDate timestamp).isSome ∧
      ∀ content ∈ contents, content.val.dgram.length < 2 ^ 31 ∧
        content.val.Recognised := by
  have sizes : (∀ content ∈ contents, content.val.dgram.length < 2 ^ 31 ∧
      content.val.Recognised) ↔
      (∃ body, writeContents (contents.map Subtype.val) = .ok body) ∧
        ∀ content ∈ contents.map Subtype.val, content.Recognised := by
    rw [exists_writeContents_iff, List.forall_mem_map, List.forall_mem_map,
      ← forall₂_and]
  rw [sizes]
  constructor
  · rintro ⟨depth, bytes, systemTime, built⟩
    unfold build dgram at built
    cases dated : writeDate timestamp with
    | none =>
      rw [dated] at built
      cases Option.some.inj built
    | some date =>
      cases wrote : writeContents (contents.map Subtype.val) with
      | error failure =>
        rw [dated, wrote] at built
        cases Option.some.inj built
      | ok body =>
        obtain ⟨_, parses⟩ := parse_written dated
        rw [dated, wrote] at built
        change parse depth (bundlePrefix ++ (date ++ body)) = _ at built
        rw [parses] at built
        obtain ⟨parsed, found, same⟩ := Option.map_eq_some_iff.mp built
        obtain ⟨found', rfl, same⟩ := map_eq_ok.mp same
        cases same
        exact ⟨rfl, ⟨body, rfl⟩,
          (recognised_of_parseContents wrote found).2 rfl⟩
  · rintro ⟨dated, ⟨body, wrote⟩, recognised⟩
    obtain ⟨date, dated⟩ := Option.isSome_iff_exists.mp dated
    obtain ⟨systemTime, parses⟩ := parse_written dated
    have parsed : ∀ content ∈ contents.map Subtype.val, content.Parsed :=
      List.forall_mem_map.mpr fun content _ => content.property
    obtain ⟨depth, found⟩ :=
      exists_parseContents wrote parsed recognised (bundlePrefix ++ date)
    refine ⟨depth, bundlePrefix ++ (date ++ body), systemTime, ?_⟩
    unfold build dgram
    rw [dated, wrote]
    change parse depth (bundlePrefix ++ (date ++ body)) = _
    rw [parses, found]
    rfl

end OscBundleBuilder
end AbletonTracks
