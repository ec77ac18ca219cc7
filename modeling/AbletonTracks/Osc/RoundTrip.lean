import AbletonTracks.Osc.Message

/-!
# What is built is parsed

A message that is built from values is parsed as the same address and the same
values, its floats with single precision, exactly when every value can be
packed and no text has a NUL.
-/

namespace AbletonTracks

open Library

/-! ## Values that can be packed -/

namespace ArgValue

mutual

/-- The value that is packed: floats have single precision, and a MIDI message
is four bytes. -/
def packed : ArgValue → ArgValue
  | .float value => .float (FloatFormat.single.rounded value)
  | .midi port status data1 data2 =>
      .midi (port % 256) (status % 256) (data1 % 256) (data2 % 256)
  | .list values => .list (packedAll values)
  | value => value

/-- The values that are packed. -/
def packedAll : List ArgValue → List ArgValue
  | [] => []
  | value :: rest => value.packed :: packedAll rest

end

mutual

/-- The values in a value that are no lists. -/
def leaves : ArgValue → List ArgValue
  | .list values => leavesAll values
  | value => [value]

/-- The values in some values that are no lists. -/
def leavesAll : List ArgValue → List ArgValue
  | [] => []
  | value :: rest => value.leaves ++ leavesAll rest

end

/-- An integer of up to 32 bits is packed with a sign, a longer one into 64
bits. -/
def IntFits (value : Int) : Prop :=
  if 2 ^ 32 ≤ value.natAbs then -2 ^ 63 ≤ value ∧ value < 2 ^ 63
  else -2 ^ 31 ≤ value ∧ value < 2 ^ 31

/-- The value has a size that its type holds. -/
def Fits : ArgValue → Prop
  | .blob bytes => bytes ≠ [] ∧ bytes.length < 2 ^ 31
  | .int value => IntFits value
  | .float value => (FloatFormat.single.pack? value).isSome
  | .timetag .. => False
  | _ => True

/-- The value is no list. -/
def IsLeaf : ArgValue → Prop
  | .list _ => False
  | _ => True

/-- A text goes up to the NUL that ends it. -/
def Plain : ArgValue → Prop
  | .string text => Char.ofNat 0 ∉ text.toList
  | _ => True

@[simp] theorem packedAll_eq_map (values : List ArgValue) :
    packedAll values = values.map packed := by
  induction values with
  | nil => rfl
  | cons value rest inductionHypothesis =>
      rw [packedAll, inductionHypothesis, List.map_cons]

end ArgValue

/-! ## Loops over several arguments -/

namespace OscMessage

theorem parseParams_append
    (first second : List Char)
    (stack : ParamStack) :
    parseParams (first ++ second) stack =
      (parseParams first stack).andThen (parseParams second) := by
  induction first generalizing stack with
  | nil => rfl
  | cons param rest inductionHypothesis =>
      rw [List.cons_append, parseParams, parseParams, Reader.andThen_assoc]
      congr 1
      funext next
      exact inductionHypothesis next

theorem parseParams_singleton (param : Char) (stack : ParamStack) :
    parseParams [param] stack = parseParam param stack :=
  Reader.andThen_done _

end OscMessage

theorem ParamStack.reading_written
    {β : Type} {get : OscTypes.Getter β} {bytes : List UInt8} {val : β}
    (understands : Understands get bytes val)
    (stack : ParamStack)
    (value : β → ArgValue) :
    Understands (stack.reading get value) bytes
      (stack.extend [value val]) := by
  have appended : Understands
      (Reader.done (stack.extend [value val]) : OscTypes.Getter ParamStack) []
      (stack.extend [value val]) := Understands.done _
  rw [← List.append_nil bytes]
  exact understands.andThen appended

namespace OscMessageBuilder

open OscTypes

theorem addArgs_cons_eq_ok
    {value : ArgValue} {rest : List ArgValue}
    {args : List (Char × ArgValue)} :
    addArgs (value :: rest) = .ok args ↔
      ∃ own others, addArg value = .ok own ∧ addArgs rest = .ok others ∧
        args = own ++ others := by
  rw [addArgs]
  cases addArg value with
  | error failure => simp
  | ok own =>
      cases addArgs rest with
      | error failure => simp
      | ok others => simp [eq_comm]

theorem addArg_list_eq_ok
    {values : List ArgValue} {args : List (Char × ArgValue)} :
    addArg (.list values) = .ok args ↔
      ∃ inner, addArgs values = .ok inner ∧
        args = ('[', .none) :: (inner ++ [(']', .none)]) := by
  rw [addArg]
  cases addArgs values with
  | error failure => simp [Except.map]
  | ok inner => simp [Except.map, eq_comm]

/-! ## Exactly the values that fit are written -/

/-- The argument of a value that is no list. -/
theorem addArg_leaf
    {value : ArgValue}
    (leaf : value.IsLeaf) :
    addArg value =
      (getArgType value).map fun argType => [(argType, value)] := by
  cases value with
  | list values => exact leaf.elim
  | _ => rfl

theorem writeInt_eq_some
    {value : Int}
    (fits : -2 ^ 31 ≤ value ∧ value < 2 ^ 31) :
    ∃ dgram, writeInt value = some dgram :=
  ⟨_, if_pos fits⟩

/-- A value that fits is written, and its type reads it again. -/
theorem exists_written_leaf
    {value : ArgValue}
    (leaf : value.IsLeaf)
    (fits : value.Fits)
    (plain : value.Plain) :
    ∃ argType dgram, getArgType value = .ok argType ∧
      writeArg (argType, value) = .ok dgram ∧
      ∀ stack, Understands (OscMessage.parseParam argType stack) dgram
        (stack.extend [value.packed]) := by
  cases value with
  | string text =>
      exact ⟨_, _, rfl, rfl, fun stack =>
        stack.reading_written (getString_written plain) .string⟩
  | blob bytes =>
      obtain ⟨nonempty, short⟩ := fits
      have inRange : -2 ^ 31 ≤ (bytes.length : Int) ∧
          (bytes.length : Int) < 2 ^ 31 := by omega
      obtain ⟨size, sized⟩ := writeInt_eq_some inRange
      have written : ∃ dgram, writeBlob bytes = some dgram := by
        rw [writeBlob, if_neg nonempty, sized]
        exact ⟨_, rfl⟩
      obtain ⟨dgram, written⟩ := written
      exact ⟨_, dgram, rfl, orBuildError_eq_ok.mpr written, fun stack =>
        stack.reading_written (getBlob_written written) .blob⟩
  | bool value =>
      cases value <;> exact ⟨_, _, rfl, rfl, fun stack => Understands.done _⟩
  | int value =>
      simp only [ArgValue.Fits, ArgValue.IntFits] at fits
      rw [getArgType]
      split at fits
      · rename_i long
        have written : writeInt64 value = some _ := if_pos fits
        rw [if_pos long]
        exact ⟨_, _, rfl, orBuildError_eq_ok.mpr written, fun stack =>
          stack.reading_written (getInt64_written written) .int⟩
      · rename_i short
        have written : writeInt value = some _ := if_pos fits
        rw [if_neg short]
        exact ⟨_, _, rfl, orBuildError_eq_ok.mpr written, fun stack =>
          stack.reading_written (getInt_written written) .int⟩
  | float value =>
      obtain ⟨word, packed⟩ := Option.isSome_iff_exists.mp fits
      have written : writeFloat value = some (bigEndian 4 word) := by
        rw [writeFloat, packed, Option.map_some]
      refine ⟨_, bigEndian 4 word, rfl, ?_, fun stack =>
        stack.reading_written (getFloat_written written) .float⟩
      simp only [writeArg, written]
  | midi port status data1 data2 =>
      exact ⟨_, _, rfl, rfl, fun stack =>
        stack.reading_written (getMidi_written port status data1 data2) _⟩
  | timetag => exact fits.elim
  | none => exact ⟨_, _, rfl, rfl, fun stack => Understands.done _⟩
  | list => exact leaf.elim

/-- Only a value that fits is written. -/
theorem fits_of_written_leaf
    {value : ArgValue} {argType : Char} {dgram : List UInt8}
    (typed : getArgType value = .ok argType)
    (wrote : writeArg (argType, value) = .ok dgram) :
    value.Fits := by
  cases value with
  | blob bytes =>
      obtain rfl := Except.ok.inj typed
      have written := orBuildError_eq_ok.mp wrote
      rw [writeBlob, Option.ite_none_left_eq_some, Option.map_eq_some_iff]
        at written
      obtain ⟨nonempty, _, sized, _⟩ := written
      rw [writeInt, Option.ite_none_right_eq_some] at sized
      exact ⟨nonempty, by omega⟩
  | int value =>
      simp only [ArgValue.Fits, ArgValue.IntFits]
      rw [getArgType] at typed
      have typed := Except.ok.inj typed
      split at typed <;> subst typed
      · rename_i long
        rw [if_pos long]
        by_contra outside
        have written := orBuildError_eq_ok.mp wrote
        rw [writeInt64, if_neg outside] at written
        cases written
      · rename_i short
        rw [if_neg short]
        by_contra outside
        have written := orBuildError_eq_ok.mp wrote
        rw [writeInt, if_neg outside] at written
        cases written
  | float value =>
      obtain rfl := Except.ok.inj typed
      by_contra overflows
      have none : FloatFormat.single.pack? value = none :=
        Option.not_isSome_iff_eq_none.mp overflows
      simp [writeArg, writeFloat, none] at wrote
  | timetag | list => cases typed
  | _ => trivial

/-- No type is a NUL. -/
theorem getArgType_ne_nul
    {value : ArgValue} {argType : Char}
    (typed : getArgType value = .ok argType) :
    Char.ofNat 0 ≠ argType := by
  cases value with
  | bool value => cases value <;> cases typed <;> decide
  | int value =>
      obtain rfl := Except.ok.inj typed
      split <;> decide
  | timetag | list => cases typed
  | _ => cases typed; decide

/-! ## Lists among the values -/

theorem leaves_of_isLeaf
    {value : ArgValue}
    (leaf : value.IsLeaf) :
    value.leaves = [value] := by
  cases value with
  | list values => exact leaf.elim
  | _ => rfl

/-- Between brackets the list grows on its own, then joins those around it. -/
theorem understands_brackets
    {tags : List Char} {body : List UInt8} {values : List ArgValue}
    (inner : ∀ stack, Understands (OscMessage.parseParams tags stack) body
      (stack.extend values))
    (stack : ParamStack) :
    Understands (OscMessage.parseParams ('[' :: (tags ++ [']'])) stack) body
      (stack.extend [.list values]) := by
  intro before rest
  have read := inner ⟨[], stack.top :: stack.outer⟩ before rest
  rw [OscMessage.parseParams]
  change OscMessage.parseParams (tags ++ [']'])
    ⟨[], stack.top :: stack.outer⟩ _ _ = _
  rw [OscMessage.parseParams_append, Reader.andThen, read]
  rfl

mutual

/-- A value whose leaves can be packed is written, and read again as what was
packed. -/
theorem exists_written
    (value : ArgValue)
    (packs : ∀ leaf ∈ value.leaves, leaf.Fits ∧ leaf.Plain) :
    ∃ args body, addArg value = .ok args ∧ writeArgs args = .ok body ∧
      Char.ofNat 0 ∉ args.map Prod.fst ∧ ∀ stack, Understands
        (OscMessage.parseParams (args.map Prod.fst) stack) body
        (stack.extend [value.packed]) := by
  by_cases leaf : value.IsLeaf
  · rw [leaves_of_isLeaf leaf] at packs
    obtain ⟨fits, plain⟩ := packs value List.mem_cons_self
    obtain ⟨argType, dgram, typed, wrote, read⟩ :=
      exists_written_leaf leaf fits plain
    refine ⟨[(argType, value)], dgram, ?_, ?_, ?_, fun stack => ?_⟩
    · rw [addArg_leaf leaf, typed]
      rfl
    · refine writeAll_cons_eq_ok.mpr ⟨dgram, [], wrote, rfl, ?_⟩
      exact (List.append_nil dgram).symm
    · rw [List.map_singleton, List.mem_singleton]
      exact getArgType_ne_nul typed
    · rw [List.map_singleton, OscMessage.parseParams_singleton]
      exact read stack
  · cases value with
    | list values =>
      obtain ⟨inner, body, added, wrote, noNul, read⟩ :=
        exists_written_all values packs
      refine ⟨_, body, addArg_list_eq_ok.mpr ⟨inner, added, rfl⟩, ?_, ?_, ?_⟩
      · refine writeAll_cons_eq_ok.mpr ⟨[], body, rfl, ?_, rfl⟩
        refine writeAll_append_eq_ok.mpr ⟨body, [], wrote, rfl, ?_⟩
        exact (List.append_nil body).symm
      · rw [List.map_cons, List.map_append, List.mem_cons, List.mem_append,
          not_or, not_or]
        exact ⟨(by decide), noNul, (by decide)⟩
      · intro stack
        rw [List.map_cons, List.map_append]
        exact understands_brackets read stack
    | _ => exact (leaf trivial).elim

/-- So are several. -/
theorem exists_written_all
    (values : List ArgValue)
    (packs : ∀ leaf ∈ ArgValue.leavesAll values, leaf.Fits ∧ leaf.Plain) :
    ∃ args body, addArgs values = .ok args ∧ writeArgs args = .ok body ∧
      Char.ofNat 0 ∉ args.map Prod.fst ∧ ∀ stack, Understands
        (OscMessage.parseParams (args.map Prod.fst) stack) body
        (stack.extend (ArgValue.packedAll values)) := by
  cases values with
  | nil =>
    refine ⟨[], [], rfl, rfl, List.not_mem_nil, fun stack => ?_⟩
    have same : stack.extend (ArgValue.packedAll []) = stack := by
      rw [ArgValue.packedAll, ParamStack.extend, List.append_nil]
    rw [same]
    exact Understands.done stack
  | cons value rest =>
    rw [ArgValue.leavesAll, List.forall_mem_append] at packs
    obtain ⟨own, early, addedOwn, wroteOwn, noNulOwn, readOwn⟩ :=
      exists_written value packs.1
    obtain ⟨others, late, addedOthers, wroteOthers, noNulOthers, readOthers⟩ :=
      exists_written_all rest packs.2
    refine ⟨own ++ others, early ++ late,
      addArgs_cons_eq_ok.mpr ⟨own, others, addedOwn, addedOthers, rfl⟩,
      writeAll_append_eq_ok.mpr ⟨early, late, wroteOwn, wroteOthers, rfl⟩,
      ?_, fun stack => ?_⟩
    · rw [List.map_append, List.mem_append, not_or]
      exact ⟨noNulOwn, noNulOthers⟩
    · have grows : stack.extend (ArgValue.packedAll (value :: rest)) =
          (stack.extend [value.packed]).extend (ArgValue.packedAll rest) := by
        simp only [ParamStack.extend, ArgValue.packedAll, List.append_assoc,
          List.singleton_append]
      rw [List.map_append, OscMessage.parseParams_append, grows]
      exact (readOwn stack).andThen (readOthers (stack.extend [value.packed]))

end

mutual

/-- Only a value whose leaves fit is written. -/
theorem fits_of_written
    (value : ArgValue)
    {args : List (Char × ArgValue)} {body : List UInt8}
    (added : addArg value = .ok args)
    (wrote : writeArgs args = .ok body) :
    ∀ leaf ∈ value.leaves, leaf.Fits := by
  by_cases leaf : value.IsLeaf
  · rw [addArg_leaf leaf] at added
    rw [leaves_of_isLeaf leaf]
    cases typed : getArgType value with
    | error failure => simp [typed, Except.map] at added
    | ok argType =>
      rw [typed] at added
      obtain rfl := Except.ok.inj added
      obtain ⟨dgram, _, wroteOwn, _, _⟩ := writeAll_cons_eq_ok.mp wrote
      rintro _ (_ | ⟨_, ⟨⟩⟩)
      exact fits_of_written_leaf typed wroteOwn
  · cases value with
    | list values =>
      obtain ⟨inner, addedInner, rfl⟩ := addArg_list_eq_ok.mp added
      obtain ⟨_, _, _, wroteRest, _⟩ := writeAll_cons_eq_ok.mp wrote
      obtain ⟨early, _, wroteInner, _, _⟩ :=
        writeAll_append_eq_ok.mp wroteRest
      exact fits_of_written_all values addedInner wroteInner
    | _ => exact (leaf trivial).elim

/-- So are several. -/
theorem fits_of_written_all
    (values : List ArgValue)
    {args : List (Char × ArgValue)} {body : List UInt8}
    (added : addArgs values = .ok args)
    (wrote : writeArgs args = .ok body) :
    ∀ leaf ∈ ArgValue.leavesAll values, leaf.Fits := by
  cases values with
  | nil => exact fun _ member => (List.not_mem_nil member).elim
  | cons value rest =>
    obtain ⟨own, others, addedOwn, addedOthers, rfl⟩ :=
      addArgs_cons_eq_ok.mp added
    obtain ⟨early, late, wroteOwn, wroteOthers, rfl⟩ :=
      writeAll_append_eq_ok.mp wrote
    rw [ArgValue.leavesAll, List.forall_mem_append]
    exact ⟨fits_of_written value addedOwn wroteOwn,
      fits_of_written_all rest addedOthers wroteOthers⟩

end

/-! ## A whole message -/

/-- What is built, with values or without. -/
theorem build_eq
    {address : String} {args : List (Char × ArgValue)} {body : List UInt8}
    (nonempty : address ≠ "")
    (wrote : writeArgs args = .ok body) :
    build address args = OscMessage.parse (writeString address ++
      (writeString (String.ofList (',' :: args.map Prod.fst)) ++ body)) := by
  rw [build, if_neg nonempty]
  by_cases none : args = []
  · subst none
    obtain rfl := Except.ok.inj wrote
    rw [if_pos rfl, List.append_nil]
    rfl
  · rw [if_neg none, wrote]

theorem writeString_ne_nil (val : String) : writeString val ≠ [] := by
  rw [writeString]
  apply List.append_ne_nil_of_right_ne_nil
  rw [Ne, List.replicate_eq_nil_iff]
  omega

/-- What is built from values that can be packed is parsed as these. -/
theorem parse_written
    {address : String} {tags : List Char} {body : List UInt8}
    {values : List ArgValue}
    (plain : Char.ofNat 0 ∉ address.toList)
    (noNul : Char.ofNat 0 ∉ tags)
    (reads : Understands (OscMessage.parseParams tags {}) body ⟨values, []⟩) :
    OscMessage.parse (writeString address ++
        (writeString (String.ofList (',' :: tags)) ++ body)) =
      .ok ⟨writeString address ++
        (writeString (String.ofList (',' :: tags)) ++ body), address,
        values⟩ := by
  have plainTags : Char.ofNat 0 ∉ (String.ofList (',' :: tags)).toList := by
    rw [String.toList_ofList, List.mem_cons, not_or]
    exact ⟨by decide, noNul⟩
  have readAddress := getString_written plain []
    (writeString (String.ofList (',' :: tags)) ++ body)
  have readTags := getString_written plainTags (writeString address) body
  have readBody := reads (writeString address ++
    writeString (String.ofList (',' :: tags))) []
  have ofTags : OscMessage.tagsOf (String.ofList (',' :: tags)) = tags := by
    simp only [OscMessage.tagsOf, String.toList_ofList]
  have more : sliceFrom (writeString address ++
      (writeString (String.ofList (',' :: tags)) ++ body))
      (writeString address).length ≠ [] := by
    rw [sliceFrom_append]
    exact List.append_ne_nil_of_left_ne_nil (writeString_ne_nil _) body
  rw [List.append_nil, List.append_assoc, List.length_append,
    Int.natCast_add] at readBody
  simp only [List.nil_append, List.length_nil, Int.natCast_zero, Int.zero_add]
    at readAddress
  rw [OscMessage.parse, OscMessage.parseFields, readAddress]
  dsimp only
  rw [if_neg more, readTags]
  dsimp only
  rw [ofTags, readBody]
  rfl

end OscMessageBuilder

/-! ## No text that was parsed has a NUL -/

namespace ArgValue

/-- No text in the value has a NUL. -/
def AllPlain (value : ArgValue) : Prop := ∀ leaf ∈ value.leaves, leaf.Plain

theorem allPlain_list
    {values : List ArgValue}
    (plain : ∀ value ∈ values, value.AllPlain) :
    (list values).AllPlain := by
  rw [AllPlain, leaves]
  induction values with
  | nil => exact fun _ member => (List.not_mem_nil member).elim
  | cons value rest inductionHypothesis =>
      rw [leavesAll, List.forall_mem_append]
      exact ⟨plain value List.mem_cons_self, inductionHypothesis fun value inRest =>
        plain value (List.mem_cons_of_mem _ inRest)⟩

end ArgValue

/-- No text on the stack has a NUL. -/
structure ParamStack.AllPlain (stack : ParamStack) : Prop where
  top : ∀ value ∈ stack.top, value.AllPlain
  outer : ∀ around ∈ stack.outer, ∀ value ∈ around, value.AllPlain

namespace ParamStack

theorem AllPlain.extend
    {stack : ParamStack} {value : ArgValue}
    (allPlain : stack.AllPlain)
    (plain : value.AllPlain) :
    (stack.extend [value]).AllPlain where
  top := by
    rw [ParamStack.extend, List.forall_mem_append]
    exact ⟨allPlain.top, List.forall_mem_singleton.mpr plain⟩
  outer := allPlain.outer

theorem AllPlain.reading
    {β : Type} {get : OscTypes.Getter β} {value : β → ArgValue}
    {stack next : ParamStack} {dgram : List UInt8} {start after : Int}
    (allPlain : stack.AllPlain)
    (plain : ∀ val middle, get dgram start = .ok (val, middle) →
      (value val).AllPlain)
    (read : stack.reading get value dgram start = .ok (next, after)) :
    next.AllPlain := by
  rw [ParamStack.reading, Reader.andThen] at read
  split at read
  · cases read
  · rename_i val middle found
    obtain ⟨rfl, _⟩ := Prod.mk.inj (Except.ok.inj read)
    exact allPlain.extend (plain val middle found)

end ParamStack

namespace OscMessage

theorem allPlain_parseParam
    {param : Char} {stack next : ParamStack}
    {dgram : List UInt8} {start after : Int}
    (allPlain : stack.AllPlain)
    (read : parseParam param stack dgram start = .ok (next, after)) :
    next.AllPlain := by
  have notText {value : ArgValue}
      (leaf : value.IsLeaf)
      (plain : value.Plain) : value.AllPlain := by
    rw [ArgValue.AllPlain, OscMessageBuilder.leaves_of_isLeaf leaf]
    exact List.forall_mem_singleton.mpr plain
  unfold parseParam at read
  split at read
  case h_5 =>
    refine allPlain.reading (fun _ _ found => ?_) read
    exact notText trivial (OscTypes.plain_of_getString found)
  case h_10 | h_11 | h_12 =>
    obtain ⟨rfl, _⟩ := Prod.mk.inj (Except.ok.inj read)
    exact allPlain.extend (notText trivial trivial)
  case h_13 =>
    obtain ⟨rfl, _⟩ := Prod.mk.inj (Except.ok.inj read)
    refine ⟨fun _ member => (List.not_mem_nil member).elim, ?_⟩
    exact List.forall_mem_cons.mpr ⟨allPlain.top, allPlain.outer⟩
  case h_14 =>
    cases found : stack.outer with
    | nil =>
      rw [found] at read
      cases read
    | cons around outer =>
      rw [found] at read
      obtain ⟨rfl, _⟩ := Prod.mk.inj (Except.ok.inj read)
      have within := allPlain.outer
      rw [found, List.forall_mem_cons] at within
      refine ⟨?_, within.2⟩
      rw [List.forall_mem_append]
      exact ⟨within.1, List.forall_mem_singleton.mpr
        (ArgValue.allPlain_list allPlain.top)⟩
  case h_15 =>
    obtain ⟨rfl, _⟩ := Prod.mk.inj (Except.ok.inj read)
    exact allPlain
  all_goals
    refine allPlain.reading (fun _ _ _ => ?_) read
    exact notText trivial trivial

theorem allPlain_parseParams
    {tags : List Char} {stack next : ParamStack}
    {dgram : List UInt8} {start after : Int}
    (allPlain : stack.AllPlain)
    (read : parseParams tags stack dgram start = .ok (next, after)) :
    next.AllPlain := by
  induction tags generalizing stack start with
  | nil =>
      obtain ⟨rfl, _⟩ := Prod.mk.inj (Except.ok.inj read)
      exact allPlain
  | cons param tags inductionHypothesis =>
      rw [parseParams, Reader.andThen] at read
      split at read
      · cases read
      · rename_i early middle found
        exact inductionHypothesis (allPlain_parseParam allPlain found) read

/-- Whatever is parsed, its texts have no NUL. -/
theorem plain_of_parse
    {dgram : List UInt8} {m : OscMessage}
    (parsed : parse dgram = .ok m) :
    Char.ofNat 0 ∉ m.address.toList ∧
      ∀ value ∈ m.params, value.AllPlain := by
  rw [parse] at parsed
  split at parsed
  · cases parsed
  · rename_i address params after fields
    obtain rfl := Except.ok.inj parsed
    unfold parseFields at fields
    split at fields
    · cases fields
    · rename_i name index readAddress
      have plain := OscTypes.plain_of_getString readAddress
      split at fields
      · obtain ⟨⟨rfl, rfl⟩, _⟩ := Except.ok.inj fields
        exact ⟨plain, fun _ member => (List.not_mem_nil member).elim⟩
      · split at fields
        · cases fields
        · split at fields
          · cases fields
          · rename_i stack last read
            split at fields
            · cases fields
              refine ⟨plain, (allPlain_parseParams ?_ read).top⟩
              exact ⟨fun _ member => (List.not_mem_nil member).elim,
                fun _ member => (List.not_mem_nil member).elim⟩
            · cases fields

end OscMessage

/-! ## Exactly what survives -/

namespace ArgValue

mutual

theorem leaves_packed (value : ArgValue) :
    value.packed.leaves = value.leaves.map packed := by
  cases value with
  | list values =>
    rw [packed, leaves, leavesAll_packedAll values]
    rfl
  | _ => rfl

theorem leavesAll_packedAll (values : List ArgValue) :
    leavesAll (packedAll values) = (leavesAll values).map packed := by
  cases values with
  | nil => rfl
  | cons value rest =>
    rw [packedAll, leavesAll, leavesAll, leaves_packed value,
      leavesAll_packedAll rest, List.map_append]

end

theorem plain_packed (value : ArgValue) :
    value.packed.Plain ↔ value.Plain := by
  cases value <;> exact Iff.rfl

theorem mem_leavesAll {leaf : ArgValue} {values : List ArgValue} :
    leaf ∈ leavesAll values ↔ ∃ value ∈ values, leaf ∈ value.leaves := by
  induction values with
  | nil => simp [leavesAll]
  | cons value rest inductionHypothesis =>
      rw [leavesAll, List.mem_append, inductionHypothesis]
      simp

end ArgValue

namespace OscMessageBuilder

/-- A message with values that fit is built, and parsed as what was packed. -/
theorem exists_message
    {address : String} {values : List ArgValue}
    (nonempty : address ≠ "")
    (plain : Char.ofNat 0 ∉ address.toList)
    (packs : ∀ value ∈ values, ∀ leaf ∈ value.leaves,
      leaf.Fits ∧ leaf.Plain) :
    ∃ m, message address values = .ok m ∧ m.address = address ∧
      m.params = values.map ArgValue.packed := by
  obtain ⟨args, body, added, wrote, noNul, read⟩ :=
    exists_written_all values fun leaf member => by
      obtain ⟨value, inValues, inValue⟩ := ArgValue.mem_leavesAll.mp member
      exact packs value inValues leaf inValue
  have reads := read {}
  rw [ArgValue.packedAll_eq_map] at reads
  have parsed := parse_written plain noNul reads
  rw [← build_eq nonempty wrote] at parsed
  rw [message, added]
  exact ⟨_, parsed, rfl, rfl⟩

/-- A message is built and parsed as its address and its packed values exactly
when it has an address, each value fits its type, and no text has a NUL. -/
theorem message_eq_ok_iff (address : String) (values : List ArgValue) :
    (∃ m, message address values = .ok m ∧ m.address = address ∧
      m.params = values.map ArgValue.packed) ↔
    address ≠ "" ∧ Char.ofNat 0 ∉ address.toList ∧
      ∀ value ∈ values, ∀ leaf ∈ value.leaves, leaf.Fits ∧ leaf.Plain := by
  constructor
  · rintro ⟨m, built, rfl, params⟩
    rw [message] at built
    split at built
    · cases built
    · rename_i args added
      rw [build] at built
      have nonempty : m.address ≠ "" := by
        intro empty
        rw [if_pos empty] at built
        cases built
      rw [if_neg nonempty] at built
      have parsed : (∃ dgram, OscMessage.parse dgram = .ok m) ∧
          ∃ body, writeArgs args = .ok body := by
        split at built
        · rename_i none
          subst none
          exact ⟨⟨_, built⟩, [], rfl⟩
        · split at built
          · cases built
          · rename_i body wrote
            exact ⟨⟨_, built⟩, body, wrote⟩
      obtain ⟨⟨dgram, parsed⟩, body, wrote⟩ := parsed
      obtain ⟨plainAddress, plainParams⟩ := OscMessage.plain_of_parse parsed
      refine ⟨nonempty, plainAddress, fun value member leaf inValue => ⟨?_, ?_⟩⟩
      · exact fits_of_written_all values added wrote leaf
          (ArgValue.mem_leavesAll.mpr ⟨value, member, inValue⟩)
      · rw [← ArgValue.plain_packed]
        refine plainParams value.packed ?_ leaf.packed ?_
        · rw [params]
          exact List.mem_map_of_mem member
        · rw [ArgValue.leaves_packed]
          exact List.mem_map_of_mem inValue
  · rintro ⟨nonempty, plain, packs⟩
    exact exists_message nonempty plain packs

end OscMessageBuilder
end AbletonTracks
