import AbletonTracks.Osc.Bundle
import Mathlib.Data.Int.Interval
import Mathlib.Data.List.Nodup

/-!
# A bundle is parsed soon or never

A size below zero leads the parser back to an index where it has been, and it
goes round for ever.  As there are only so many indices, its rounds and the
calls for its contents nest to a depth that the length of the datagram bounds,
or it never ends.  This bounds no number of calls: contents may overlap, and
each is parsed for itself.
-/

namespace AbletonTracks

open Library

namespace OscBundle

open OscTypes

variable {dgram : List UInt8} {index : Int}

/-! ## One round -/

/-- Where an integer can be read, and that it is not read from the end of the
datagram into its beginning. -/
theorem range_of_getInt
    {size start : Int}
    (read : getInt dgram index = .ok (size, start)) :
    -dgram.length ≤ index ∧ index < dgram.length ∧ start = index + 4 ∧
      1 ≤ sliceIndex dgram.length start ∧ 1 ≤ dgram.length := by
  rw [getInt, getWord] at read
  split at read
  · cases read
  · obtain ⟨found, unpacked, same⟩ := map_eq_ok.mp read
    unfold unpack at unpacked
    dsimp only at unpacked
    split at unpacked
    · rename_i whole
      obtain rfl := Except.ok.inj unpacked
      obtain rfl := (Prod.mk.inj same).2
      rw [slice, List.length_drop, List.length_take] at whole
      unfold sliceIndex at whole ⊢
      split at whole <;> split at whole <;> split <;> omega
    · cases unpacked

theorem length_content
    {size start : Int}
    (read : getInt dgram index = .ok (size, start)) :
    (slice dgram start (start + size)).length < dgram.length := by
  obtain ⟨_, _, _, later, nonempty⟩ := range_of_getInt read
  rw [slice, List.length_drop, List.length_take]
  omega

/-- After one more round the loop has ended: there was nothing more to read, or
no size, or no content, or it ends from the next index on. -/
theorem isSome_succ_iff {depth : Nat} :
    (parseContents (depth + 1) dgram index).isSome ↔
      sliceFrom dgram index = [] ∨
      (∃ failure, getInt dgram index = .error failure) ∨
      ∃ size start, getInt dgram index = .ok (size, start) ∧
        ∃ result, contentWith (parseContents depth)
            (slice dgram start (start + size)) = some result ∧
          ((∃ failure, result = .error failure) ∨
            (parseContents depth dgram (start + size)).isSome) := by
  rw [parseContents]
  split
  · rename_i finished
    simp [finished]
  · rename_i unfinished
    split
    · rename_i failure failed
      simp [failed]
    · rename_i size start read
      simp only [unfinished, read, false_or, reduceCtorEq, exists_false,
        Except.ok.injEq, Prod.mk.injEq]
      constructor
      · intro ends
        refine ⟨size, start, ⟨rfl, rfl⟩, ?_⟩
        split at ends
        · cases ends
        · rename_i failure failed
          exact ⟨_, failed, .inl ⟨failure, rfl⟩⟩
        · rename_i own found
          exact ⟨_, found, .inr (by simpa using ends)⟩
      · rintro ⟨_, _, ⟨rfl, rfl⟩, result, found, goesOn⟩
        rw [found]
        cases result with
        | error failure => rfl
        | ok own => simpa using goesOn

/-! ## The indices that are visited -/

/-- From each index of the list the loop ends as deep as indices are left, and
as its contents nest; all but the last lie within the datagram. -/
def Halting (dgram : List UInt8) (inner : Nat) (visited : List Int) : Prop :=
  ∀ index rest, index :: rest <:+ visited →
    (parseContents (rest.length + 1 + inner) dgram index).isSome ∧
      (rest ≠ [] → -dgram.length ≤ index ∧ index < dgram.length)

/-- Where the loop ends it visits no index twice. -/
theorem exists_halting
    {depth inner : Nat}
    (contents : ∀ content : List UInt8, content.length < dgram.length →
      ∀ depth result,
        contentWith (parseContents depth) content = some result →
          contentWith (parseContents inner) content = some result)
    (ends : (parseContents depth dgram index).isSome) :
    ∃ rest, (index :: rest).Nodup ∧ Halting dgram inner (index :: rest) := by
  induction depth generalizing index with
  | zero => cases ends
  | succ depth inductionHypothesis =>
      have alone (once : (parseContents (inner + 1) dgram index).isSome) :
          ∃ rest, (index :: rest).Nodup ∧
            Halting dgram inner (index :: rest) := by
        refine ⟨[], List.nodup_singleton index, fun other rest within => ?_⟩
        obtain same | none := List.suffix_cons_iff.mp within
        · obtain ⟨rfl, rfl⟩ := List.cons.inj same
          rw [List.length_nil, Nat.zero_add, Nat.add_comm]
          exact ⟨once, fun more => (more rfl).elim⟩
        · cases List.suffix_nil.mp none
      obtain finished | failed | ⟨size, start, read, result, found, goesOn⟩ :=
        isSome_succ_iff.mp ends
      · exact alone (isSome_succ_iff.mpr (.inl finished))
      · exact alone (isSome_succ_iff.mpr (.inr (.inl failed)))
      · have short := length_content read
        have again := contents _ short depth result found
        obtain failure | later := goesOn
        · exact alone (isSome_succ_iff.mpr (.inr (.inr
            ⟨size, start, read, result, again, .inl failure⟩)))
        · obtain ⟨rest, distinct, halting⟩ := inductionHypothesis later
          by_cases visited : index ∈ (start + size) :: rest
          · -- The loop came by here before; what it did since is left out.
            obtain ⟨early, late, split⟩ := List.append_of_mem visited
            have within : index :: late <:+ (start + size) :: rest :=
              ⟨early, split.symm⟩
            refine ⟨late, within.sublist.nodup distinct, ?_⟩
            exact fun other rest suffix => halting other rest
              (suffix.trans within)
          · refine ⟨(start + size) :: rest,
              List.nodup_cons.mpr ⟨visited, distinct⟩, ?_⟩
            intro other others within
            obtain same | within := List.suffix_cons_iff.mp within
            · obtain ⟨rfl, rfl⟩ := List.cons.inj same
              obtain ⟨lower, upper, _⟩ := range_of_getInt read
              refine ⟨?_, fun _ => ⟨lower, upper⟩⟩
              have next := (halting _ _ List.suffix_rfl).1
              rw [List.length_cons, Nat.add_right_comm]
              refine isSome_succ_iff.mpr (.inr (.inr
                ⟨size, start, read, result, ?_, .inr next⟩))
              exact contentWith_mono (fun _ _ parsed =>
                parseContents_of_le parsed (Nat.le_add_left _ _)) again
            · exact halting other others within

/-- So it visits no more indices than there are. -/
theorem length_le_of_halting
    {inner : Nat} {rest : List Int}
    (distinct : (index :: rest).Nodup)
    (halting : Halting dgram inner (index :: rest)) :
    rest.length ≤ 2 * dgram.length := by
  have range : ∀ other ∈ (index :: rest).dropLast,
      other ∈ Finset.Ico (-dgram.length : Int) dgram.length := by
    intro other member
    obtain ⟨early, late, split⟩ := List.append_of_mem member
    have whole : index :: rest = early ++ (other :: late) ++
        [(index :: rest).getLast (List.cons_ne_nil _ _)] := by
      rw [← split, List.dropLast_append_getLast]
    have within : other :: (late ++
        [(index :: rest).getLast (List.cons_ne_nil _ _)]) <:+
          index :: rest := by
      refine ⟨early, ?_⟩
      rw [← List.cons_append, ← List.append_assoc, ← whole]
    exact Finset.mem_Ico.mpr ((halting _ _ within).2 (by simp))
  have count := Finset.card_le_card fun other member =>
    range other (List.mem_toFinset.mp member)
  rw [List.toFinset_card_of_nodup (distinct.sublist (List.dropLast_sublist _)),
    List.length_dropLast, List.length_cons, Int.card_Ico] at count
  omega

/-! ## The bound -/

/-- A depth that does for a datagram of a length. -/
def enough (length : Nat) : Nat := 2 * (length + 1) ^ 2

theorem isSome_enough
    {length depth : Nat}
    (fits : dgram.length ≤ length)
    (ends : (parseContents depth dgram index).isSome) :
    (parseContents (enough length) dgram index).isSome := by
  induction length generalizing dgram index depth with
  | zero =>
      obtain rfl := List.eq_nil_of_length_eq_zero (Nat.le_zero.mp fits)
      exact isSome_succ_iff.mpr (.inl (List.drop_nil ..))
  | succ length inductionHypothesis =>
      have inner : ∀ content : List UInt8, content.length < dgram.length →
          ∀ depth result,
            contentWith (parseContents depth) content = some result →
            contentWith (parseContents (enough length)) content =
              some result := by
        intro content short depth result found
        refine contentWith_mono (fun other parsed within => ?_) found
        have once : (parseContents depth content other).isSome :=
          Option.isSome_iff_exists.mpr ⟨parsed, within⟩
        obtain ⟨again, soon⟩ := Option.isSome_iff_exists.mp
          (inductionHypothesis (Nat.le_of_lt_succ (short.trans_le fits)) once)
        have early := parseContents_add within (enough length)
        rw [Nat.add_comm] at early
        rw [soon, ← early, parseContents_add soon depth]
      obtain ⟨rest, distinct, halting⟩ := exists_halting inner ends
      have few := length_le_of_halting distinct halting
      obtain ⟨result, parsed⟩ :=
        Option.isSome_iff_exists.mp (halting _ _ List.suffix_rfl).1
      rw [parseContents_of_le parsed]
      · rfl
      · have grows : enough (length + 1) = enough length + (4 * length + 6) := by
          unfold enough
          ring
        omega

/-- A bundle is parsed within a depth that its length bounds, or the parser
never comes back. -/
theorem parse_isSome_iff (dgram : List UInt8) :
    (∃ depth, (parse depth dgram).isSome) ↔
      (parse (enough dgram.length) dgram).isSome := by
  refine ⟨?_, fun ends => ⟨_, ends⟩⟩
  rintro ⟨depth, ends⟩
  unfold parse bundleWith at ends ⊢
  split at ends
  · exact ends
  · rw [Option.isSome_map] at ends ⊢
    exact isSome_enough le_rfl ends

/-! ## A size that leads back -/

/-- The size of a content that ends where its size begins. -/
def backwards : List UInt8 := bigEndian 4 (twosComplement (2 ^ 32) (-4))

theorem parseContents_backwards
    (before rest : List UInt8)
    (depth : Nat) :
    parseContents depth (before ++ (backwards ++ rest)) before.length =
      none := by
  have sized : writeInt (-4) = some backwards := if_pos (by decide)
  have read := getInt_written sized before rest
  have start : (before.length : Int) + backwards.length =
      (before ++ backwards).length := by
    rw [List.length_append, Int.natCast_add]
  have back : ((before ++ backwards).length : Int) + -4 = before.length := by
    rw [← start, length_of_writeInt sized]
    omega
  have nothing : slice (before ++ (backwards ++ rest))
      (before ++ backwards).length before.length = [] := by
    rw [slice, sliceIndex_natCast, sliceIndex_natCast, List.drop_eq_nil_iff,
      List.length_take, List.length_append]
    omega
  induction depth with
  | zero => rfl
  | succ depth inductionHypothesis =>
      have more : sliceFrom (before ++ (backwards ++ rest))
          before.length ≠ [] := by
        rw [sliceFrom_append]
        exact List.append_ne_nil_of_left_ne_nil
          (List.ne_nil_of_length_pos (by simp [length_of_writeInt sized])) _
      have skipped (contents : List UInt8 → Int → Bounded (List OscContent)) :
          contentWith contents [] = some (.ok []) := rfl
      rw [parseContents, if_neg more, read, start]
      dsimp only
      rw [back, nothing, skipped, inductionHypothesis]
      rfl

/-- A bundle of any contents with such a size after them is never parsed. -/
theorem parse_backwards_eq_none
    {timestamp : ℚ} {date body : List UInt8}
    {contents : List {content : OscContent //
      content.Parsed ∧ content.Recognised}}
    (dated : writeDate timestamp = some date)
    (wrote : OscBundleBuilder.writeContents (contents.map Subtype.val) =
      .ok body)
    (rest : List UInt8)
    (depth : Nat) :
    parse depth (bundlePrefix ++ (date ++ (body ++ (backwards ++ rest)))) =
      none := by
  obtain ⟨systemTime, parses⟩ := OscBundleBuilder.parse_written dated
  rw [parses, Option.map_eq_none_iff]
  generalize bundlePrefix ++ date = before
  clear parses dated
  induction contents generalizing before body depth with
  | nil =>
      obtain rfl := Except.ok.inj wrote
      exact parseContents_backwards before rest depth
  | cons content others inductionHypothesis =>
      obtain ⟨size, later, sized, wroteLater, rfl⟩ :=
        OscBundleBuilder.writeContents_cons_eq_ok.mp wrote
      cases depth with
      | zero => rfl
      | succ depth =>
          have goesOn := inductionHypothesis wroteLater depth
            (before ++ (size ++ content.val.dgram))
          simp only [List.append_assoc] at goesOn ⊢
          rw [parseContents_written before _ _ sized]
          split
          · rfl
          · rename_i failure failed
            obtain ⟨few, found⟩ :=
              exists_contentWith content.property.1 content.property.2
            have early := contentWith_mono (fun _ _ parsed =>
              parseContents_of_le parsed (Nat.le_add_right depth few)) failed
            have late := contentWith_mono (fun _ _ parsed =>
              parseContents_of_le parsed (Nat.le_add_left few depth)) found
            cases early.symm.trans late
          · rw [goesOn]
            rfl

private def ping : OscMessage := ⟨[47, 97, 0, 0, 44, 0, 0, 0], "/a", []⟩

/-- A message, then the size, then three bytes more. -/
theorem parse_backwards_eq_none_ping :
    parse (enough 39)
      (bundlePrefix ++ (ntpImmediately ++
        ([0, 0, 0, 8] ++ (ping.dgram ++ []) ++ (backwards ++ [1, 2, 3])))) =
      none := by
  have parsed : OscMessage.parse ping.dgram = .ok ping := rfl
  have slash : OscMessage.dgramIsMessage ping.dgram = true := by decide +kernel
  have wrote : OscBundleBuilder.writeContents [.message ping] =
      .ok ([0, 0, 0, 8] ++ (ping.dgram ++ [])) :=
    OscBundleBuilder.writeContents_cons_eq_ok.mpr
      ⟨[0, 0, 0, 8], [], if_pos (by decide), rfl, rfl⟩
  exact @parse_backwards_eq_none 0 ntpImmediately _
    [⟨.message ping, parsed, slash⟩] (if_pos rfl) wrote [1, 2, 3] _

end OscBundle
end AbletonTracks
