import AbletonTracks.Library.Floating
import Mathlib.Tactic.Linarith
import Mathlib.Tactic.Ring

/-!
# Floats as bits

The binary interchange formats of IEEE 754: a sign, an exponent and a fraction,
packed into one word.  A number becomes the word of the nearest float, and
`ofBits_bits` says that the word is read as that float.
-/

namespace Library

theorem abs_roundHalfEven_sub_le (value : ℚ) :
    |(roundHalfEven value : ℚ) - value| ≤ 1 / 2 := by
  have below := Int.floor_le value
  have above := Int.lt_floor_add_one value
  unfold roundHalfEven
  dsimp only
  rw [abs_le]
  split_ifs <;> push_cast <;> constructor <;> linarith

theorem roundHalfEven_nonneg
    {value : ℚ}
    (nonneg : 0 ≤ value) :
    0 ≤ roundHalfEven value := by
  have near := (abs_le.mp (abs_roundHalfEven_sub_le value)).1
  have above : (-1 : ℚ) < roundHalfEven value := by linarith
  exact Int.lt_iff_add_one_le.mp (by exact_mod_cast above)

theorem roundHalfEven_nonpos
    {value : ℚ}
    (nonpos : value ≤ 0) :
    roundHalfEven value ≤ 0 := by
  have near := (abs_le.mp (abs_roundHalfEven_sub_le value)).2
  have below : (roundHalfEven value : ℚ) < 1 := by linarith
  exact Int.lt_add_one_iff.mp (by exact_mod_cast below)

/-- How many bits the fields of a float have. -/
structure FloatFormat where
  fraction : Nat
  exponent : Nat
  fraction_pos : 0 < fraction
  two_le : 2 ≤ exponent

namespace FloatFormat

/-- A C `float`. -/
def single : FloatFormat := ⟨23, 8, by decide, by decide⟩

/-- A C `double`. -/
def double : FloatFormat := ⟨52, 11, by decide, by decide⟩

variable (format : FloatFormat)

/-- The exponent of the last binary place of the smallest floats. -/
def least : ℤ := 2 - 2 ^ (format.exponent - 1) - format.fraction

/-- The exponent of the last binary place that is kept of a number. -/
def lastPlace (value : ℚ) : ℤ :=
  max (Int.log 2 |value| - format.fraction) format.least

/-- The digits of the nearest float, in units of its last place. -/
def digits (value : ℚ) : ℤ :=
  roundHalfEven (value / 2 ^ format.lastPlace value)

/-- The nearest float. -/
def round (value : ℚ) : ℚ :=
  format.digits value * 2 ^ format.lastPlace value

theorem round_single (value : ℚ) : single.round value = toSingle value := rfl

/-- From here on a number is rounded to an infinity. -/
def overflow : ℚ :=
  2 ^ 2 ^ (format.exponent - 1) -
    2 ^ ((2 : ℤ) ^ (format.exponent - 1) - 2 - format.fraction)

/-! ## Packing -/

/-- Exponent and fraction of the nearest float.  A digit more than the fraction
holds is carried into the exponent. -/
def magnitude (value : ℚ) : Nat :=
  let digits := (format.digits value).natAbs
  if digits = 0 then 0
  else
    (format.lastPlace value - format.least).toNat * 2 ^ format.fraction +
      digits

/-- Where the sign is. -/
def signBit : Nat := 2 ^ (format.fraction + format.exponent)

/-- The word of the nearest float. -/
def bits (value : ℚ) : Nat :=
  (if value < 0 then format.signBit else 0) + format.magnitude value

/-- The number with an exponent and a fraction, unless the exponent stands for
infinities and the like. -/
def ofMagnitude (magnitude : Nat) : Option ℚ :=
  let field := magnitude / 2 ^ format.fraction
  let fraction := magnitude % 2 ^ format.fraction
  if field = 0 then some (fraction * 2 ^ format.least)
  else if field = 2 ^ format.exponent - 1 then none
  else
    some ((2 ^ format.fraction + fraction : Nat) *
      2 ^ ((field : ℤ) - 1 + format.least))

/-- The float that a word stands for. -/
def ofBits (bits : Nat) : Floating :=
  let negative := decide (format.signBit ≤ bits)
  let magnitude := bits % format.signBit
  match format.ofMagnitude magnitude with
  | some value => .finite (if negative then -value else value)
  | none =>
      if magnitude % 2 ^ format.fraction = 0 then .infinite negative else .nan

/-- The word of a float, unless it overflows. -/
def pack? : Floating → Option Nat
  | .finite value =>
      if |value| < format.overflow then some (format.bits value) else none
  | .infinite negative =>
      some ((if negative then format.signBit else 0) +
        (2 ^ format.exponent - 1) * 2 ^ format.fraction)
  | .nan =>
      some ((2 ^ format.exponent - 1) * 2 ^ format.fraction +
        2 ^ (format.fraction - 1))

/-- The nearest float of the format. -/
def rounded : Floating → Floating
  | .finite value => .finite (format.round value)
  | special => special

/-! ## How many digits there are -/

variable {format} {value : ℚ}

/-- The digits are the nearest whole number. -/
theorem abs_natAbs_digits_sub_le (format : FloatFormat) (value : ℚ) :
    |((format.digits value).natAbs : ℚ) -
      |value| / 2 ^ format.lastPlace value| ≤ 1 / 2 := by
  have positive : (0 : ℚ) < 2 ^ format.lastPlace value :=
    zpow_pos (by norm_num) _
  have quotient : |value| / 2 ^ format.lastPlace value =
      |value / 2 ^ format.lastPlace value| := by
    rw [abs_div, abs_of_pos positive]
  rw [Nat.cast_natAbs, Int.cast_abs, quotient]
  exact (abs_abs_sub_abs_le _ _).trans (abs_roundHalfEven_sub_le _)

theorem natAbs_digits_le (format : FloatFormat) (value : ℚ) :
    (format.digits value).natAbs ≤ 2 * 2 ^ format.fraction := by
  have near := (abs_le.mp (abs_natAbs_digits_sub_le format value)).2
  have quotient : |value| / 2 ^ format.lastPlace value ≤
      2 * 2 ^ format.fraction := by
    rw [div_le_iff₀ (zpow_pos (by norm_num) _)]
    have below := Int.lt_zpow_succ_log_self (b := 2) (by norm_num) |value|
    refine below.le.trans ?_
    rw [← pow_succ', ← zpow_natCast, ← zpow_add₀ (by norm_num)]
    apply zpow_le_zpow_right₀ (by norm_num)
    have kept := le_max_left (Int.log 2 |value| - format.fraction) format.least
    unfold lastPlace
    push_cast
    omega
  have small : ((format.digits value).natAbs : ℚ) <
      (2 * 2 ^ format.fraction + 1 : Nat) := by
    push_cast
    linarith
  exact Nat.lt_add_one_iff.mp (by exact_mod_cast small)

/-- Above the last place of all there is a leading digit. -/
theorem le_natAbs_digits
    (normal : format.least < format.lastPlace value)
    (nonzero : value ≠ 0) :
    2 ^ format.fraction ≤ (format.digits value).natAbs := by
  have near := (abs_le.mp (abs_natAbs_digits_sub_le format value)).1
  have quotient : (2 ^ format.fraction : ℚ) ≤
      |value| / 2 ^ format.lastPlace value := by
    rw [le_div_iff₀ (zpow_pos (by norm_num) _)]
    have place : format.lastPlace value =
        Int.log 2 |value| - format.fraction := by
      unfold lastPlace at *
      omega
    have below := Int.zpow_log_le_self (b := 2) (by norm_num)
      (abs_pos.mpr nonzero)
    refine le_trans (le_of_eq ?_) below
    rw [← zpow_natCast, ← zpow_add₀ (by norm_num), place]
    push_cast
    congr 1
    ring
  have large : ((2 ^ format.fraction : Nat) : ℚ) <
      ((format.digits value).natAbs + 1 : Nat) := by
    push_cast
    linarith
  exact Nat.lt_add_one_iff.mp (by exact_mod_cast large)

/-! ## The largest floats -/

theorem two_le_two_pow (format : FloatFormat) :
    (2 : ℤ) ≤ 2 ^ (format.exponent - 1) := by
  have := format.two_le
  calc (2 : ℤ) = 2 ^ 1 := by norm_num
    _ ≤ 2 ^ (format.exponent - 1) := pow_le_pow_right₀ (by norm_num) (by omega)

theorem lastPlace_le
    (small : |value| < 2 ^ 2 ^ (format.exponent - 1)) :
    format.lastPlace value ≤
      2 ^ (format.exponent - 1) - 1 - format.fraction := by
  have two := two_le_two_pow format
  have log : Int.log 2 |value| ≤ 2 ^ (format.exponent - 1) - 1 := by
    by_cases zero : value = 0
    · subst zero
      rw [abs_zero, Int.log_zero_right]
      linarith
    · have below := (Int.zpow_log_le_self (b := 2) (by norm_num)
        (abs_pos.mpr zero)).trans_lt small
      push_cast at below
      rw [← zpow_natCast] at below
      have less := (zpow_lt_zpow_iff_right₀ (by norm_num)).mp below
      push_cast at less
      linarith
  unfold lastPlace least
  rw [max_le_iff]
  constructor <;> linarith

/-- In units of the largest place of all. -/
theorem overflow_eq :
    format.overflow = (2 * 2 ^ format.fraction - 1 / 2) *
      2 ^ ((2 : ℤ) ^ (format.exponent - 1) - 1 - format.fraction) := by
  have whole : (2 : ℚ) ^ 2 ^ (format.exponent - 1) = 2 * 2 ^ format.fraction *
      2 ^ ((2 : ℤ) ^ (format.exponent - 1) - 1 - format.fraction) := by
    rw [← pow_succ', ← zpow_natCast, ← zpow_natCast, ← zpow_add₀ (by norm_num)]
    push_cast
    congr 1
    ring
  have half : (2 : ℚ) ^ ((2 : ℤ) ^ (format.exponent - 1) - 2 -
      format.fraction) =
        1 / 2 * 2 ^ ((2 : ℤ) ^ (format.exponent - 1) - 1 -
          format.fraction) := by
    rw [one_div, ← zpow_neg_one, ← zpow_add₀ (by norm_num)]
    congr 1
    ring
  rw [overflow, whole, half]
  ring

/-- In the largest place of all the digits are not rounded up to a carry. -/
theorem natAbs_digits_lt
    (small : |value| < format.overflow)
    (place : format.lastPlace value =
      2 ^ (format.exponent - 1) - 1 - format.fraction) :
    (format.digits value).natAbs < 2 * 2 ^ format.fraction := by
  have near := (abs_le.mp (abs_natAbs_digits_sub_le format value)).2
  have quotient : |value| / 2 ^ format.lastPlace value <
      2 * 2 ^ format.fraction - 1 / 2 := by
    rw [div_lt_iff₀ (zpow_pos (by norm_num) _), place, ← overflow_eq]
    exact small
  have less : ((format.digits value).natAbs : ℚ) <
      (2 * 2 ^ format.fraction : Nat) := by
    push_cast
    linarith
  exact_mod_cast less

/-- A number that does not overflow has an exponent below the last one. -/
theorem magnitude_lt
    (small : |value| < format.overflow) :
    format.magnitude value <
      (2 ^ format.exponent - 1) * 2 ^ format.fraction := by
  have two := two_le_two_pow format
  have positive : (0 : ℚ) <
      2 ^ ((2 : ℤ) ^ (format.exponent - 1) - 2 - format.fraction) :=
    zpow_pos (by norm_num) _
  have place : format.lastPlace value ≤ _ := lastPlace_le
    (small.trans (sub_lt_self _ positive))
  have doubled : 2 ^ format.exponent = 2 * 2 ^ (format.exponent - 1) := by
    have := format.two_le
    rw [← pow_succ']
    congr 1
    omega
  have digits := natAbs_digits_le format value
  have unit : 0 < 2 ^ format.fraction := by positivity
  have last := natAbs_digits_lt small
  have half : (2 : ℤ) ^ (format.exponent - 1) =
      (2 ^ (format.exponent - 1) : Nat) := by
    push_cast
    rfl
  have least : format.least =
      2 - (2 ^ (format.exponent - 1) : Nat) - format.fraction := by
    rw [← half]
    rfl
  rw [half] at two place last
  unfold magnitude
  dsimp only
  rw [doubled]
  generalize 2 ^ (format.exponent - 1) = top at *
  split
  · exact Nat.mul_pos (by omega) unit
  · by_cases largest : format.lastPlace value = top - 1 - format.fraction
    · have exponent : (format.lastPlace value - format.least).toNat =
          2 * top - 3 := by omega
      have digits := last largest
      have room : 2 * top - 1 = 2 * top - 3 + 2 := by omega
      rw [exponent, room, Nat.add_mul]
      omega
    · have exponent : (format.lastPlace value - format.least).toNat + 1 ≤
          2 * top - 3 := by omega
      have room : 2 * top - 1 = 2 * top - 3 + 1 + 1 := by omega
      have product := Nat.mul_le_mul_right (2 ^ format.fraction) exponent
      rw [room, Nat.add_mul, Nat.add_mul]
      rw [Nat.add_mul] at product
      omega

/-! ## Reading a packed number -/

/-- A number with a leading digit, which may be carried. -/
theorem ofMagnitude_add
    {place digits : Nat}
    (leading : 2 ^ format.fraction ≤ digits)
    (carried : digits ≤ 2 * 2 ^ format.fraction)
    (bounded : place * 2 ^ format.fraction + digits <
      (2 ^ format.exponent - 1) * 2 ^ format.fraction) :
    format.ofMagnitude (place * 2 ^ format.fraction + digits) =
      some ((digits : ℚ) * 2 ^ ((place : ℤ) + format.least)) := by
  have unit : 0 < 2 ^ format.fraction := by positivity
  have field := (Nat.div_lt_iff_lt_mul unit).mpr bounded
  obtain ⟨more, rfl⟩ := Nat.exists_eq_add_of_le leading
  have quotient : (place * 2 ^ format.fraction +
      (2 ^ format.fraction + more)) / 2 ^ format.fraction =
        place + 1 + more / 2 ^ format.fraction := by
    rw [← add_assoc, ← Nat.succ_mul, add_comm, Nat.add_mul_div_right _ _ unit,
      add_comm]
  have remainder : (place * 2 ^ format.fraction +
      (2 ^ format.fraction + more)) % 2 ^ format.fraction =
        more % 2 ^ format.fraction := by
    rw [← add_assoc, ← Nat.succ_mul, add_comm, Nat.add_mul_mod_self_right]
  unfold ofMagnitude
  rw [quotient] at field ⊢
  dsimp only
  rw [remainder, if_neg (Nat.add_right_comm _ _ _ ▸ Nat.succ_ne_zero _),
    if_neg field.ne]
  congr 1
  rcases Nat.lt_or_ge more (2 ^ format.fraction) with less | carry
  · rw [Nat.div_eq_of_lt less, Nat.mod_eq_of_lt less]
    push_cast
    congr 2
    ring
  · obtain rfl : more = 2 ^ format.fraction := by omega
    rw [Nat.div_self unit, Nat.mod_self]
    have next : ((place + 1 + 1 : Nat) : ℤ) - 1 + format.least =
        1 + (place + format.least) := by
      push_cast
      ring
    rw [next, zpow_add₀ (by norm_num), zpow_one]
    push_cast
    ring

/-- Without the sign. -/
theorem ofMagnitude_magnitude
    (small : |value| < format.overflow) :
    format.ofMagnitude (format.magnitude value) =
      some |format.round value| := by
  have bounded := magnitude_lt small
  have rounded : |format.round value| =
      (format.digits value).natAbs * 2 ^ format.lastPlace value := by
    rw [round, abs_mul, Nat.cast_natAbs, Int.cast_abs,
      abs_of_pos (zpow_pos (by norm_num : (0 : ℚ) < 2) _)]
  have atLeast : format.least ≤ format.lastPlace value := le_max_right _ _
  have unit : 0 < 2 ^ format.fraction := by positivity
  unfold magnitude at bounded ⊢
  dsimp only at bounded ⊢
  rw [rounded]
  split at bounded
  · rename_i zero
    rw [if_pos zero, zero]
    simp [ofMagnitude]
  · rename_i nonzero
    rw [if_neg nonzero]
    rcases Nat.lt_or_ge (format.digits value).natAbs (2 ^ format.fraction)
      with subnormal | leading
    · have last : format.lastPlace value = format.least := by
        by_contra different
        refine absurd (le_natAbs_digits
          (lt_of_le_of_ne atLeast (Ne.symm different)) ?_)
          (Nat.not_le.mpr subnormal)
        rintro rfl
        exact nonzero (by simp [digits, roundHalfEven])
      rw [last, Int.sub_self, Int.toNat_zero, Nat.zero_mul, Nat.zero_add]
      simp [ofMagnitude, Nat.div_eq_of_lt subnormal,
        Nat.mod_eq_of_lt subnormal]
    · rw [ofMagnitude_add leading (natAbs_digits_le format value) bounded,
        Int.toNat_of_nonneg (Int.sub_nonneg.mpr atLeast), Int.sub_add_cancel]

/-- The word of a number is read as the nearest float. -/
theorem ofBits_bits
    (small : |value| < format.overflow) :
    format.ofBits (format.bits value) = .finite (format.round value) := by
  have bounded : format.magnitude value < format.signBit := by
    refine (magnitude_lt small).trans_le ?_
    rw [signBit, add_comm, pow_add]
    exact Nat.mul_le_mul_right _ (Nat.sub_le _ _)
  have read := ofMagnitude_magnitude small
  have positive : (0 : ℚ) < 2 ^ format.lastPlace value :=
    zpow_pos (by norm_num) _
  unfold ofBits bits
  dsimp only
  by_cases negative : value < 0
  · have sign : format.round value ≤ 0 := by
      refine mul_nonpos_of_nonpos_of_nonneg ?_ positive.le
      exact_mod_cast roundHalfEven_nonpos
        (div_nonpos_of_nonpos_of_nonneg negative.le positive.le)
    rw [if_pos negative, Nat.add_mod_left, Nat.mod_eq_of_lt bounded, read]
    simp [abs_of_nonpos sign]
  · have sign : 0 ≤ format.round value := by
      refine mul_nonneg ?_ positive.le
      exact_mod_cast roundHalfEven_nonneg
        (div_nonneg (not_lt.mp negative) positive.le)
    rw [if_neg negative, Nat.zero_add, Nat.mod_eq_of_lt bounded, read]
    simp [abs_of_nonneg sign, Nat.not_le.mpr bounded]

theorem signBit_eq :
    format.signBit = 2 ^ format.exponent * 2 ^ format.fraction := by
  rw [signBit, pow_add, Nat.mul_comm]

/-- Words with the last exponent of all stand for no number. -/
theorem ofMagnitude_special
    (format : FloatFormat)
    {fraction : Nat}
    (fits : fraction < 2 ^ format.fraction) :
    format.ofMagnitude
      ((2 ^ format.exponent - 1) * 2 ^ format.fraction + fraction) = none := by
  have two : 1 < 2 ^ format.exponent :=
    Nat.one_lt_two_pow (Nat.ne_of_gt (Nat.lt_of_lt_of_le two_pos format.two_le))
  have field : ((2 ^ format.exponent - 1) * 2 ^ format.fraction + fraction) /
      2 ^ format.fraction = 2 ^ format.exponent - 1 := by
    rw [add_comm, Nat.add_mul_div_right _ _ (by positivity),
      Nat.div_eq_of_lt fits, Nat.zero_add]
  unfold ofMagnitude
  dsimp only
  rw [field, if_neg (Nat.sub_ne_zero_of_lt two), if_pos rfl]

/-- The word of a float is read as the nearest float. -/
theorem ofBits_of_pack?
    {float : Floating} {word : Nat}
    (packed : format.pack? float = some word) :
    format.ofBits word = format.rounded float := by
  have unit : 0 < 2 ^ format.fraction := by positivity
  have field : (2 ^ format.exponent - 1) * 2 ^ format.fraction +
      2 ^ format.fraction = format.signBit := by
    rw [signBit_eq, ← Nat.succ_mul, Nat.succ_eq_add_one,
      Nat.sub_add_cancel Nat.one_le_two_pow]
  cases float with
  | finite value =>
      simp only [pack?, Option.ite_none_right_eq_some, Option.some.injEq]
        at packed
      obtain ⟨small, rfl⟩ := packed
      exact ofBits_bits small
  | infinite negative =>
      obtain rfl := Option.some.inj packed
      have special := ofMagnitude_special format unit
      have below : (2 ^ format.exponent - 1) * 2 ^ format.fraction <
          format.signBit := by omega
      rw [Nat.add_zero] at special
      unfold ofBits
      dsimp only
      cases negative with
      | false =>
          rw [if_neg Bool.false_ne_true, Nat.zero_add,
            Nat.mod_eq_of_lt below, special]
          simp [Nat.not_le.mpr below, rounded]
      | true =>
          rw [if_pos rfl, Nat.add_mod_left, Nat.mod_eq_of_lt below, special]
          simp [rounded]
  | nan =>
      obtain rfl := Option.some.inj packed
      have half : 2 ^ (format.fraction - 1) < 2 ^ format.fraction :=
        Nat.pow_lt_pow_right (by decide) (by have := format.fraction_pos; omega)
      have special := ofMagnitude_special format half
      have below : (2 ^ format.exponent - 1) * 2 ^ format.fraction +
          2 ^ (format.fraction - 1) < format.signBit := by omega
      unfold ofBits
      dsimp only
      rw [Nat.mod_eq_of_lt below, special]
      simp [Nat.mod_eq_of_lt half, rounded]

theorem lt_of_pack?
    {float : Floating} {word : Nat}
    (packed : format.pack? float = some word) :
    word < 2 * format.signBit := by
  have unit : 0 < 2 ^ format.fraction := by positivity
  have field : (2 ^ format.exponent - 1) * 2 ^ format.fraction +
      2 ^ format.fraction = format.signBit := by
    rw [signBit_eq, ← Nat.succ_mul, Nat.succ_eq_add_one,
      Nat.sub_add_cancel Nat.one_le_two_pow]
  cases float with
  | finite value =>
      simp only [pack?, Option.ite_none_right_eq_some, Option.some.injEq]
        at packed
      obtain ⟨small, rfl⟩ := packed
      have bounded := magnitude_lt small
      unfold bits
      split <;> omega
  | infinite negative =>
      obtain rfl := Option.some.inj packed
      cases negative <;> simp <;> omega
  | nan =>
      obtain rfl := Option.some.inj packed
      have half : 2 ^ (format.fraction - 1) < 2 ^ format.fraction :=
        Nat.pow_lt_pow_right (by decide) (by have := format.fraction_pos; omega)
      omega

end FloatFormat
end Library
