import AbletonTracks.Library.Bytes
import AbletonTracks.Library.Floats
import AbletonTracks.Library.Reading

/-!
# The values of an OSC datagram

`pythonosc/parsing/osc_types.py`: how one value is written, and how it is read
at a position of a datagram.
-/

namespace AbletonTracks

open Library

/-- What python-osc and the codecs under it raise. -/
inductive OscError
  /-- `osc_types.ParseError`. -/
  | typesParse
  /-- `osc_message.ParseError`. -/
  | messageParse
  /-- `osc_bundle.ParseError`. -/
  | bundleParse
  /-- `osc_message_builder.BuildError`. -/
  | build
  /-- A `UnicodeDecodeError`. -/
  | unicodeDecode
  /-- An `OverflowError`. -/
  | overflow
  /-- A `ValueError`. -/
  | value
  /-- A `struct.error`. -/
  | struct
  deriving DecidableEq

namespace OscTypes

/-- What reads a value of a datagram. -/
abbrev Getter (β : Type) := Reader UInt8 OscError β

/-! ## Writing -/

/-- `write_string`. -/
def writeString (val : String) : List UInt8 :=
  let dgram := utf8 val
  dgram ++ List.replicate (4 - dgram.length % 4) 0

/-- `write_int`, unless it raises a `BuildError`. -/
def writeInt (val : Int) : Option (List UInt8) :=
  if -2 ^ 31 ≤ val ∧ val < 2 ^ 31 then
    some (bigEndian 4 (twosComplement (2 ^ 32) val))
  else none

/-- `write_int64`, unless it raises a `BuildError`. -/
def writeInt64 (val : Int) : Option (List UInt8) :=
  if -2 ^ 63 ≤ val ∧ val < 2 ^ 63 then
    some (bigEndian 8 (twosComplement (2 ^ 64) val))
  else none

/-- `write_float`, unless it raises an `OverflowError`. -/
def writeFloat (val : Floating) : Option (List UInt8) :=
  (FloatFormat.single.pack? val).map (bigEndian 4)

/-- `write_blob`, unless it raises a `BuildError`. -/
def writeBlob (val : List UInt8) : Option (List UInt8) :=
  if val = [] then none
  else
    (writeInt val.length).map fun size =>
      size ++ val ++ List.replicate ((-(val.length : Int) % 4).toNat) 0

/-- `write_midi`. -/
def writeMidi (port status data1 data2 : Int) : List UInt8 :=
  let word := port % 256 * 2 ^ 24 + status % 256 * 2 ^ 16 +
    data1 % 256 * 2 ^ 8 + data2 % 256
  bigEndian 4 word.toNat

/-! ## Reading -/

/-- Where a string ends whose first zero has an offset: the offset, aligned to a
byte word. -/
def align (offset : Nat) : Nat :=
  if offset % 4 = 0 then offset + 4
  else offset + (-(offset : Int) % 4).toNat

/-- `get_string`.  Its test for an empty string compares a byte with a text of
four, so that it never holds. -/
def getString : Getter String := fun dgram start =>
  if start < 0 then .error .typesParse
  else
    let tail := sliceFrom dgram start
    match tail.findIdx? fun byte => byte = 0 with
    | none => .error .typesParse
    | some offset =>
        if tail.length < align offset then .error .typesParse
        else
          let dataStr := (tail.take (align offset)).filter fun byte => byte ≠ 0
          match ofUtf8? dataStr with
          | none => .error .unicodeDecode
          | some text => .ok (text, start + align offset)

/-- `struct.unpack` of one word. -/
def unpack (width : Nat) : Getter Nat := fun dgram start =>
  let word := slice dgram start (start + width)
  if word.length = width then .ok (ofBigEndian word, start + width)
  else .error .typesParse

/-- What the getters of a fixed size have in common. -/
def getWord {β : Type} (width : Nat) (value : Nat → β) : Getter β :=
  fun dgram start =>
    if (sliceFrom dgram start).length < width then .error .typesParse
    else (unpack width dgram start).map fun found => (value found.1, found.2)

/-- `get_int`. -/
def getInt : Getter Int := getWord 4 (ofTwosComplement (2 ^ 32))

/-- `get_int64`. -/
def getInt64 : Getter Int := getWord 8 (ofTwosComplement (2 ^ 64))

/-- `get_timetag`: the seconds and the fraction, of which the source makes a
date. -/
def getTimetag : Getter (Nat × Nat) :=
  getWord 8 fun timetag => (timetag / 2 ^ 32, timetag % 2 ^ 32)

/-- `get_float`: a datagram that ends too early is padded with zeros. -/
def getFloat : Getter Floating := fun dgram start =>
  let missing := 4 - (sliceFrom dgram start).length
  (unpack 4 (dgram ++ List.replicate missing 0) start).map fun found =>
    (FloatFormat.single.ofBits found.1, found.2)

/-- `get_double`. -/
def getDouble : Getter Floating := getWord 8 FloatFormat.double.ofBits

/-- `get_rgba`. -/
def getRgba : Getter Nat := getWord 4 id

/-- `get_midi`. -/
def getMidi : Getter (Int × Int × Int × Int) :=
  getWord 4 fun val =>
    (val / 2 ^ 24 % 256, val / 2 ^ 16 % 256, val / 2 ^ 8 % 256, val % 256)

/-- `get_blob`. -/
def getBlob : Getter (List UInt8) := fun dgram start =>
  match getInt dgram start with
  | .error failure => .error failure
  | .ok (size, intOffset) =>
      let totalSize := size + -size % 4
      let endIndex := intOffset + size
      if endIndex - start > (sliceFrom dgram start).length then
        .error .typesParse
      else
        .ok (slice dgram intOffset (intOffset + size), intOffset + totalSize)

/-! ## Dates -/

/-- `_NTP_DELTA`: the seconds from 1900 to 1970. -/
def ntpDelta : ℚ := 2208988800

/-- `ntp.IMMEDIATELY`. -/
def ntpImmediately : List UInt8 := bigEndian 8 1

/-- `get_date`: seconds since 1970, or `IMMEDIATELY`. -/
def getDate : Getter ℚ := fun dgram start =>
  if slice dgram start (start + 8) = ntpImmediately then .ok (0, start + 8)
  else
    getWord 8 (fun timetag => toDouble (toDouble timetag / 2 ^ 32 - ntpDelta))
      dgram start

/-- `write_date` of a float, unless it raises a `struct.error`. -/
def writeDate (systemTime : ℚ) : Option (List UInt8) :=
  if systemTime = 0 then some ntpImmediately
  else
    let timetag := toDouble (systemTime + ntpDelta) * 2 ^ 32
    let whole := if 0 ≤ timetag then ⌊timetag⌋ else ⌈timetag⌉
    if 0 ≤ whole ∧ whole < 2 ^ 64 then some (bigEndian 8 whole.toNat)
    else none

/-! ## What is written is read -/

variable {bytes : List UInt8}

theorem unpack_written {width : Nat} (sized : bytes.length = width) :
    Understands (unpack width) bytes (ofBigEndian bytes) := by
  intro before rest
  subst sized
  simp only [unpack, slice_append, if_true]

theorem getWord_written
    {β : Type} {width : Nat}
    (value : Nat → β)
    (sized : bytes.length = width) :
    Understands (getWord width value) bytes (value (ofBigEndian bytes)) := by
  intro before rest
  have tail : ¬(sliceFrom (before ++ (bytes ++ rest)) before.length).length <
      width := by
    rw [sliceFrom_append, List.length_append, sized]
    omega
  rw [getWord, if_neg tail, unpack_written sized]
  rfl

theorem getInt_written
    {val : Int}
    (written : writeInt val = some bytes) :
    Understands getInt bytes val := by
  simp only [writeInt, Option.ite_none_right_eq_some, Option.some.injEq]
    at written
  obtain ⟨⟨lower, upper⟩, rfl⟩ := written
  have read := getWord_written (ofTwosComplement (2 ^ 32))
    (length_bigEndian 4 (twosComplement (2 ^ 32) val))
  rwa [ofTwosComplement_ofBigEndian (by norm_num) (by norm_num) lower upper]
    at read

theorem getInt64_written
    {val : Int}
    (written : writeInt64 val = some bytes) :
    Understands getInt64 bytes val := by
  simp only [writeInt64, Option.ite_none_right_eq_some, Option.some.injEq]
    at written
  obtain ⟨⟨lower, upper⟩, rfl⟩ := written
  have read := getWord_written (ofTwosComplement (2 ^ 64))
    (length_bigEndian 8 (twosComplement (2 ^ 64) val))
  rwa [ofTwosComplement_ofBigEndian (by norm_num) (by norm_num) lower upper]
    at read

theorem getFloat_written
    {val : Floating}
    (written : writeFloat val = some bytes) :
    Understands getFloat bytes (FloatFormat.single.rounded val) := by
  obtain ⟨word, packed, rfl⟩ := Option.map_eq_some_iff.mp written
  intro before rest
  have small : word < 256 ^ 4 := FloatFormat.lt_of_pack? packed
  have missing : 4 - (sliceFrom (before ++ (bigEndian 4 word ++ rest))
      before.length).length = 0 := by
    rw [sliceFrom_append, List.length_append, length_bigEndian]
    omega
  have read := unpack_written (length_bigEndian 4 word) before rest
  rw [ofBigEndian_bigEndian, Nat.mod_eq_of_lt small] at read
  rw [getFloat, missing, List.replicate_zero, List.append_nil, read]
  simp only [Except.map, FloatFormat.ofBits_of_pack? packed]

theorem getMidi_written (port status data1 data2 : Int) :
    Understands getMidi (writeMidi port status data1 data2)
      (port % 256, status % 256, data1 % 256, data2 % 256) := by
  have read := getWord_written (β := Int × Int × Int × Int)
    (fun val => (val / 2 ^ 24 % 256, val / 2 ^ 16 % 256,
      val / 2 ^ 8 % 256, val % 256))
    (length_bigEndian 4 (port % 256 * 2 ^ 24 + status % 256 * 2 ^ 16 +
      data1 % 256 * 2 ^ 8 + data2 % 256).toNat)
  rw [ofBigEndian_bigEndian, Nat.mod_eq_of_lt (by omega),
    Int.toNat_of_nonneg (by omega)] at read
  have values : (port % 256, status % 256, data1 % 256, data2 % 256) =
      ((port % 256 * 2 ^ 24 + status % 256 * 2 ^ 16 + data1 % 256 * 2 ^ 8 +
          data2 % 256) / 2 ^ 24 % 256,
        (port % 256 * 2 ^ 24 + status % 256 * 2 ^ 16 + data1 % 256 * 2 ^ 8 +
          data2 % 256) / 2 ^ 16 % 256,
        (port % 256 * 2 ^ 24 + status % 256 * 2 ^ 16 + data1 % 256 * 2 ^ 8 +
          data2 % 256) / 2 ^ 8 % 256,
        (port % 256 * 2 ^ 24 + status % 256 * 2 ^ 16 + data1 % 256 * 2 ^ 8 +
          data2 % 256) % 256) := by
    simp only [Prod.mk.injEq]
    omega
  rw [values]
  exact read

theorem length_of_writeInt
    {val : Int}
    (written : writeInt val = some bytes) :
    bytes.length = 4 := by
  simp only [writeInt, Option.ite_none_right_eq_some, Option.some.injEq]
    at written
  obtain ⟨_, rfl⟩ := written
  exact length_bigEndian _ _

theorem getBlob_written
    {val : List UInt8}
    (written : writeBlob val = some bytes) :
    Understands getBlob bytes val := by
  simp only [writeBlob, Option.ite_none_left_eq_some, Option.map_eq_some_iff]
    at written
  obtain ⟨_, size, sized, rfl⟩ := written
  have four := length_of_writeInt sized
  intro before rest
  generalize padded : List.replicate ((-(val.length : Int) % 4).toNat)
    (0 : UInt8) = padding
  have pad : (padding.length : Int) = -(val.length : Int) % 4 := by
    rw [← padded, List.length_replicate]
    omega
  have read := getInt_written sized before (val ++ (padding ++ rest))
  have value := slice_append (before ++ size) val (padding ++ rest)
  rw [List.length_append, Int.natCast_add, List.append_assoc] at value
  have whole : size ++ val ++ padding ++ rest =
      size ++ (val ++ (padding ++ rest)) := by
    simp only [List.append_assoc]
  rw [getBlob, whole, read]
  dsimp only
  rw [sliceFrom_append, if_neg (by simp only [List.length_append]; omega),
    value, Except.ok.injEq, Prod.mk.injEq]
  refine ⟨rfl, ?_⟩
  simp only [List.length_append]
  omega

theorem length_of_writeDate
    {systemTime : ℚ}
    (written : writeDate systemTime = some bytes) :
    bytes.length = 8 := by
  unfold writeDate at written
  dsimp only at written
  split at written
  · obtain rfl := Option.some.inj written
    exact length_bigEndian _ _
  · obtain ⟨_, same⟩ := Option.ite_none_right_eq_some.mp written
    obtain rfl := Option.some.inj same
    exact length_bigEndian _ _

/-- Any eight bytes are a date. -/
theorem getDate_written (sized : bytes.length = 8) :
    ∃ systemTime, Understands getDate bytes systemTime := by
  by_cases immediately : bytes = ntpImmediately
  · refine ⟨0, fun before rest => ?_⟩
    have word := slice_append before bytes rest
    rw [sized, Nat.cast_ofNat] at word ⊢
    rw [getDate, word, if_pos immediately]
  · refine ⟨toDouble (toDouble (ofBigEndian bytes : Nat) / 2 ^ 32 - ntpDelta),
      fun before rest => ?_⟩
    have word := slice_append before bytes rest
    have read := getWord_written (fun timetag : Nat =>
      toDouble (toDouble timetag / 2 ^ 32 - ntpDelta)) sized before rest
    rw [sized, Nat.cast_ofNat] at word
    rw [getDate, word, if_neg immediately]
    exact read

/-- A text ends at its first zero. -/
private theorem findIdx?_zero
    {count : Nat}
    (plain : 0 ∉ bytes)
    (pads : 0 < count)
    (rest : List UInt8) :
    (bytes ++ (List.replicate count 0 ++ rest)).findIdx?
      (fun byte => byte = 0) = some bytes.length := by
  have none : bytes.findIdx? (fun byte => byte = 0) = none := by
    rw [List.findIdx?_eq_none_iff]
    intro byte member
    exact decide_eq_false fun zero => plain (zero ▸ member)
  obtain ⟨more, rfl⟩ := Nat.exists_eq_add_of_lt pads
  rw [List.findIdx?_append, none, Nat.zero_add, List.replicate_succ,
    List.cons_append, List.findIdx?_cons]
  simp

theorem getString_written
    {val : String}
    (plain : Char.ofNat 0 ∉ val.toList) :
    Understands getString (writeString val) val := by
  intro before rest
  have noZero : 0 ∉ utf8 val := mt (zero_mem_utf8 val).mp plain
  have found : (writeString val ++ rest).findIdx? (fun byte => byte = 0) =
      some (utf8 val).length := by
    rw [writeString, List.append_assoc]
    refine findIdx?_zero noZero (Nat.sub_pos_of_lt ?_) rest
    exact Nat.mod_lt _ (by decide)
  have size : align (utf8 val).length = (writeString val).length := by
    rw [align, writeString, List.length_append, List.length_replicate]
    split <;> omega
  have text : (writeString val).filter (fun byte => byte ≠ 0) = utf8 val := by
    rw [writeString, List.filter_append, List.filter_replicate_of_neg (by simp),
      List.append_nil, List.filter_eq_self]
    intro byte member
    exact decide_eq_true fun zero => noZero (zero ▸ member)
  rw [getString, if_neg (by omega), sliceFrom_append]
  dsimp only
  rw [found]
  dsimp only
  rw [size, if_neg (by simp only [List.length_append]; omega), List.take_left,
    text, ofUtf8?_utf8]

/-- A text that was read has no NUL. -/
theorem plain_of_getString
    {dgram : List UInt8} {start next : Int} {text : String}
    (read : getString dgram start = .ok (text, next)) :
    Char.ofNat 0 ∉ text.toList := by
  unfold getString at read
  dsimp only at read
  split at read
  · cases read
  · split at read
    · cases read
    · split at read
      · cases read
      · split at read
        · cases read
        · rename_i decoded
          obtain ⟨rfl, _⟩ := Prod.mk.inj (Except.ok.inj read)
          rw [← zero_mem_utf8, utf8_of_ofUtf8? decoded]
          simp

end OscTypes
end AbletonTracks
