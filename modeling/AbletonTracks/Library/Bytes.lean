import Mathlib.Data.Nat.ModEq
import Mathlib.Tactic.Linarith
import Mathlib.Tactic.Ring

/-!
# Bytes

Numbers as words of a fixed number of bytes, the first byte counting most,
integers in two's complement, and text in UTF-8.
-/

namespace Library

/-- The last bytes of a number. -/
def bigEndian : Nat → Nat → List UInt8
  | 0, _ => []
  | width + 1, number =>
      UInt8.ofNat (number / 256 ^ width) :: bigEndian width number

/-- The number that a word stands for. -/
def ofBigEndian (bytes : List UInt8) : Nat :=
  bytes.foldl (fun number byte => number * 256 + byte.toNat) 0

@[simp] theorem length_bigEndian (width number : Nat) :
    (bigEndian width number).length = width := by
  induction width with
  | zero => rfl
  | succ width inductionHypothesis =>
      rw [bigEndian, List.length_cons, inductionHypothesis]

private theorem foldl_bigEndian (bytes : List UInt8) (start : Nat) :
    bytes.foldl (fun number byte => number * 256 + byte.toNat) start =
      start * 256 ^ bytes.length + ofBigEndian bytes := by
  induction bytes generalizing start with
  | nil => simp [ofBigEndian]
  | cons byte rest inductionHypothesis =>
      rw [ofBigEndian, List.foldl_cons, List.foldl_cons, inductionHypothesis,
        inductionHypothesis (0 * 256 + byte.toNat), List.length_cons, pow_succ]
      ring

theorem ofBigEndian_cons (byte : UInt8) (rest : List UInt8) :
    ofBigEndian (byte :: rest) =
      byte.toNat * 256 ^ rest.length + ofBigEndian rest := by
  rw [ofBigEndian, List.foldl_cons, foldl_bigEndian, Nat.zero_mul,
    Nat.zero_add]

/-- A word is read as the number that was written, up to what did not fit. -/
theorem ofBigEndian_bigEndian (width number : Nat) :
    ofBigEndian (bigEndian width number) = number % 256 ^ width := by
  induction width with
  | zero => simp [bigEndian, ofBigEndian, Nat.mod_one]
  | succ width inductionHypothesis =>
      rw [bigEndian, ofBigEndian_cons, inductionHypothesis, length_bigEndian,
        Nat.mod_pow_succ, UInt8.toNat_ofNat']
      ring

/-! ## Two's complement -/

/-- The word of an integer among `count` words. -/
def twosComplement (count : Nat) (value : Int) : Nat := (value % count).toNat

/-- The integer that a word stands for. -/
def ofTwosComplement (count word : Nat) : Int := Int.bmod word count

theorem ofTwosComplement_twosComplement
    {half : Nat} {value : Int}
    (lower : -half ≤ value)
    (upper : value < half) :
    ofTwosComplement (2 * half) (twosComplement (2 * half) value) = value := by
  have positive : 0 < half := by omega
  have word := Int.emod_nonneg value (b := (2 * half : Nat)) (by omega)
  rw [ofTwosComplement, twosComplement, Int.toNat_of_nonneg word,
    Int.emod_bmod]
  exact Int.bmod_eq_of_le (by omega) (by omega)

theorem twosComplement_lt
    {count : Nat}
    (positive : 0 < count)
    (value : Int) :
    twosComplement count value < count := by
  have above := Int.emod_lt_of_pos value (b := count) (by omega)
  unfold twosComplement
  omega

/-- An integer that fits is read as it was written. -/
theorem ofTwosComplement_ofBigEndian
    {width half count : Nat} {value : Int}
    (words : count = 256 ^ width)
    (halves : count = 2 * half)
    (lower : -half ≤ value)
    (upper : value < half) :
    ofTwosComplement count
        (ofBigEndian (bigEndian width (twosComplement count value))) =
      value := by
  rw [ofBigEndian_bigEndian, ← words,
    Nat.mod_eq_of_lt (twosComplement_lt (by omega) value), halves]
  exact ofTwosComplement_twosComplement lower upper

/-! ## Text -/

/-- `text.encode()`. -/
def utf8 (text : String) : List UInt8 :=
  text.toList.flatMap String.utf8EncodeChar

/-- `bytes.decode()`, unless it raises. -/
def ofUtf8? (bytes : List UInt8) : Option String :=
  (ByteArray.utf8Decode? bytes.toByteArray).map fun chars =>
    String.ofList chars.toList

theorem ofUtf8?_utf8 (text : String) : ofUtf8? (utf8 text) = some text := by
  have encoded : (utf8 text).toByteArray = text.toList.utf8Encode := rfl
  rw [ofUtf8?, encoded, List.utf8Decode?_utf8Encode, Option.map_some,
    List.toList_toArray, String.ofList_toList]

/-- Only the encoding of a text is decoded to it. -/
theorem utf8_of_ofUtf8?
    {bytes : List UInt8} {text : String}
    (decoded : ofUtf8? bytes = some text) :
    utf8 text = bytes := by
  obtain ⟨chars, found, rfl⟩ := Option.map_eq_some_iff.mp decoded
  have encoded := ByteArray.utf8Encode_get_utf8Decode? (b := bytes.toByteArray)
    (h := by rw [found]; rfl)
  simp only [found, Option.get_some] at encoded
  have same := congrArg (fun array : ByteArray => array.data.toList) encoded
  simp only [List.utf8Encode, List.data_toByteArray] at same
  simpa [utf8] using same

private theorem ofNat_ne_zero
    {number : Nat}
    (nonzero : 0 < number)
    (small : number < 256) :
    (0 : UInt8) ≠ UInt8.ofNat number := by
  intro zero
  have same := congrArg UInt8.toNat zero
  rw [UInt8.toNat_ofNat', Nat.mod_eq_of_lt small] at same
  exact Nat.ne_of_lt nonzero same

private theorem zero_mem_utf8EncodeChar (char : Char) :
    0 ∈ String.utf8EncodeChar char ↔ char = Char.ofNat 0 := by
  constructor
  · intro member
    unfold String.utf8EncodeChar at member
    dsimp only at member
    split_ifs at member with one two three
    all_goals simp only [List.mem_cons, List.not_mem_nil, or_false] at member
    · by_contra different
      refine ofNat_ne_zero (Nat.pos_of_ne_zero fun zero => different ?_)
        (by omega) member
      exact Char.ext (UInt32.toNat_inj.mp zero)
    · rcases member with zero | zero
      all_goals exact absurd zero (ofNat_ne_zero (by omega) (by omega))
    · rcases member with zero | zero | zero
      all_goals exact absurd zero (ofNat_ne_zero (by omega) (by omega))
    · rcases member with zero | zero | zero | zero
      all_goals exact absurd zero (ofNat_ne_zero (by omega) (by omega))
  · rintro rfl
    decide

/-- Only the character NUL is encoded with a zero. -/
theorem zero_mem_utf8 (text : String) :
    0 ∈ utf8 text ↔ Char.ofNat 0 ∈ text.toList := by
  simp [utf8, zero_mem_utf8EncodeChar]

end Library
