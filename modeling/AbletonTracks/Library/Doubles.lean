import AbletonTracks.Library.Floats

/-!
# How far rounding moves a number

A number moves by half a unit of its last place at most.  Numbers that are one
apart become the same double, or doubles that are half apart; and a float of
single precision is a double.
-/

namespace Library

theorem roundHalfEven_intCast (whole : ℤ) :
    roundHalfEven (whole : ℚ) = whole := by
  simp [roundHalfEven]

namespace FloatFormat

variable {format : FloatFormat} {value : ℚ}

theorem abs_round_sub_le (format : FloatFormat) (value : ℚ) :
    |format.round value - value| ≤ 2 ^ format.lastPlace value / 2 := by
  have positive : (0 : ℚ) < 2 ^ format.lastPlace value :=
    zpow_pos (by norm_num) _
  have near := abs_roundHalfEven_sub_le (value / 2 ^ format.lastPlace value)
  have moved : format.round value - value =
      (format.digits value - value / 2 ^ format.lastPlace value) *
        2 ^ format.lastPlace value := by
    rw [round, sub_mul, div_mul_cancel₀ _ positive.ne']
  calc |format.round value - value|
      = |format.digits value - value / 2 ^ format.lastPlace value| *
          2 ^ format.lastPlace value := by
        rw [moved, abs_mul, abs_of_pos positive]
    _ ≤ 1 / 2 * 2 ^ format.lastPlace value :=
        mul_le_mul_of_nonneg_right near positive.le
    _ = 2 ^ format.lastPlace value / 2 := by ring

theorem two_zpow_lastPlace_le (format : FloatFormat) (value : ℚ) :
    (2 : ℚ) ^ format.lastPlace value ≤ |value| + 1 := by
  have two := two_le_two_pow format
  have atMostOne : ∀ place : ℤ, place ≤ 0 → (2 : ℚ) ^ place ≤ |value| + 1 := by
    intro place nonpos
    refine (zpow_le_one_of_nonpos₀ (by norm_num) nonpos).trans ?_
    linarith [abs_nonneg value]
  unfold lastPlace
  rcases max_choice (Int.log 2 |value| - format.fraction) format.least
    with leading | last
  · rw [leading]
    by_cases zero : value = 0
    · apply atMostOne
      simp [zero]
    · have below := Int.zpow_log_le_self (b := 2) (by norm_num)
        (abs_pos.mpr zero)
      have smaller : (2 : ℚ) ^ (Int.log 2 |value| - format.fraction) ≤
          2 ^ Int.log 2 |value| :=
        zpow_le_zpow_right₀ (by norm_num) (by omega)
      push_cast at below
      linarith
  · rw [last]
    apply atMostOne
    unfold least
    omega

theorem abs_round_le (format : FloatFormat) (value : ℚ) :
    |format.round value| ≤ 2 * |value| + 1 := by
  have moved := abs_round_sub_le format value
  have unit := two_zpow_lastPlace_le format value
  have triangle := abs_add_le (format.round value - value) value
  rw [sub_add_cancel] at triangle
  linarith [abs_nonneg value]

/-- A number that the digits of the format hold stays as it is. -/
theorem round_mul_zpow
    {digits place : ℤ}
    (few : |digits| < 2 ^ (format.fraction + 1))
    (inside : format.least ≤ place) :
    format.round (digits * 2 ^ place) = digits * 2 ^ place := by
  have positive : ∀ place : ℤ, (0 : ℚ) < 2 ^ place :=
    fun place => zpow_pos (by norm_num) _
  by_cases zero : digits = 0
  · simp [zero, round, FloatFormat.digits, roundHalfEven]
  have nonzero : (digits * 2 ^ place : ℚ) ≠ 0 :=
    mul_ne_zero (Int.cast_ne_zero.mpr zero) (positive place).ne'
  have small : |(digits * 2 ^ place : ℚ)| <
      2 ^ (format.fraction + 1 + place : ℤ) := by
    rw [abs_mul, abs_of_pos (positive place), zpow_add₀ (by norm_num)]
    refine mul_lt_mul_of_pos_right ?_ (positive place)
    exact_mod_cast few
  have log : Int.log 2 |(digits * 2 ^ place : ℚ)| <
      format.fraction + 1 + place :=
    (Int.lt_zpow_iff_log_lt (b := 2) (by norm_num)
      (abs_pos.mpr nonzero)).mp (by exact_mod_cast small)
  obtain ⟨more, kept⟩ : ∃ more : Nat,
      place = more + format.lastPlace (digits * 2 ^ place) := by
    refine ⟨(place - format.lastPlace (digits * 2 ^ place)).toNat, ?_⟩
    unfold lastPlace
    omega
  have whole : (digits * 2 ^ place : ℚ) /
      2 ^ format.lastPlace (digits * 2 ^ place) =
        ((digits * 2 ^ more : ℤ) : ℚ) := by
    rw [div_eq_iff (positive _).ne']
    nth_rewrite 1 [kept]
    rw [zpow_add₀ (by norm_num), zpow_natCast]
    push_cast
    ring
  rw [round, FloatFormat.digits, whole, roundHalfEven_intCast, ← whole,
    div_mul_cancel₀ _ (positive _).ne']

end FloatFormat

open FloatFormat

theorem round_double (value : ℚ) : double.round value = toDouble value := rfl

theorem abs_toDouble_le (value : ℚ) : |toDouble value| ≤ 2 * |value| + 1 :=
  abs_round_le double value

/-- A float of single precision is a double. -/
theorem toDouble_toSingle (value : ℚ) :
    toDouble (toSingle value) = toSingle value := by
  have few := natAbs_digits_le single value
  have inside : single.least ≤ single.lastPlace value := le_max_right _ _
  refine @round_mul_zpow double _ _ ?_ ?_
  · have digits : |single.digits value| ≤ 2 * 2 ^ 23 := by
      rw [Int.abs_eq_natAbs]
      exact_mod_cast few
    exact digits.trans_lt (by decide)
  · exact le_trans (by decide) inside

theorem lt_of_lastPlaceDouble_le
    {value : ℚ}
    (low : lastPlaceDouble value ≤ -2) :
    |value| < 2 ^ 51 := by
  have above := Int.lt_zpow_succ_log_self (b := 2) (by norm_num) |value|
  have log : Int.log 2 |value| + 1 ≤ 51 := by
    unfold lastPlaceDouble at low
    omega
  push_cast at above
  exact_mod_cast above.trans_le (zpow_le_zpow_right₀ (by norm_num) log)

theorem le_of_le_lastPlaceDouble
    {value : ℚ}
    (high : 0 ≤ lastPlaceDouble value) :
    2 ^ 52 ≤ |value| ∧
      (2 : ℚ) ^ lastPlaceDouble value * 2 ^ 52 ≤ |value| := by
  have log : lastPlaceDouble value + 52 = Int.log 2 |value| := by
    unfold lastPlaceDouble at *
    omega
  have nonzero : value ≠ 0 := by
    rintro rfl
    simp at log
    omega
  have below := Int.zpow_log_le_self (b := 2) (by norm_num)
    (abs_pos.mpr nonzero)
  push_cast at below
  rw [← log, zpow_add₀ (by norm_num)] at below
  have one : (1 : ℚ) ≤ 2 ^ lastPlaceDouble value :=
    one_le_zpow₀ (by norm_num) high
  have unit : (2 : ℚ) ^ lastPlaceDouble value * 2 ^ 52 ≤ |value| := by
    exact_mod_cast below
  exact ⟨by linarith, unit⟩

/-- Doubles whose last places are not below one half are half apart. -/
theorem half_le_of_lastPlaces
    {early late : ℚ}
    (coarse : -1 ≤ lastPlaceDouble early)
    (ordered : lastPlaceDouble early ≤ lastPlaceDouble late)
    (differ : toDouble early ≠ toDouble late) :
    1 / 2 ≤ |toDouble early - toDouble late| := by
  obtain ⟨more, place⟩ := Int.eq_ofNat_of_zero_le (Int.sub_nonneg.mpr ordered)
  have positive : (0 : ℚ) < 2 ^ lastPlaceDouble early :=
    zpow_pos (by norm_num) _
  have multiple : toDouble early - toDouble late =
      ((double.digits early - double.digits late * 2 ^ more : ℤ) : ℚ) *
        2 ^ lastPlaceDouble early := by
    have place : lastPlaceDouble late = more + lastPlaceDouble early := by
      omega
    have late : toDouble late = double.digits late *
        (2 ^ more * 2 ^ lastPlaceDouble early) := by
      rw [← zpow_natCast, ← zpow_add₀ (by norm_num), ← place]
      rfl
    have early : toDouble early =
        double.digits early * 2 ^ lastPlaceDouble early := rfl
    rw [early, late]
    push_cast
    ring
  have nonzero : double.digits early - double.digits late * 2 ^ more ≠ 0 := by
    intro zero
    rw [zero, Int.cast_zero, zero_mul] at multiple
    exact differ (sub_eq_zero.mp multiple)
  have one : (1 : ℚ) ≤
      |((double.digits early - double.digits late * 2 ^ more : ℤ) : ℚ)| := by
    exact_mod_cast Int.one_le_abs nonzero
  calc (1 / 2 : ℚ) = 1 * 2 ^ (-1 : ℤ) := by norm_num
    _ ≤ |((double.digits early - double.digits late * 2 ^ more : ℤ) : ℚ)| *
          2 ^ lastPlaceDouble early :=
        mul_le_mul one (zpow_le_zpow_right₀ (by norm_num) coarse)
          (by positivity) (abs_nonneg _)
    _ = |toDouble early - toDouble late| := by
        rw [multiple, abs_mul, abs_of_pos positive]

/-- Numbers that are one apart become doubles that are half apart, where they
do not become the same. -/
theorem half_le_abs_toDouble_sub
    {early late : ℚ}
    (apart : 1 ≤ |early - late|)
    (differ : toDouble early ≠ toDouble late) :
    1 / 2 ≤ |toDouble early - toDouble late| := by
  wlog ordered : lastPlaceDouble early ≤ lastPlaceDouble late
  · rw [abs_sub_comm]
    exact this (by rwa [abs_sub_comm]) differ.symm (le_of_not_ge ordered)
  by_cases coarse : -1 ≤ lastPlaceDouble early
  · exact half_le_of_lastPlaces coarse ordered differ
  have low : lastPlaceDouble early ≤ -2 := by omega
  have earlyMoved := abs_round_sub_le double early
  have lateMoved := abs_round_sub_le double late
  have fine : (2 : ℚ) ^ lastPlaceDouble early ≤ 2 ^ (-2 : ℤ) :=
    zpow_le_zpow_right₀ (by norm_num) low
  have detour : |early - late| ≤ |toDouble early - early| +
      |toDouble late - late| + |toDouble early - toDouble late| := by
    have parts : early - late = -(toDouble early - early) +
        (toDouble late - late) + (toDouble early - toDouble late) := by ring
    calc |early - late|
        ≤ |-(toDouble early - early) + (toDouble late - late)| +
            |toDouble early - toDouble late| := by
          rw [parts]
          exact abs_add_le _ _
      _ ≤ _ := by
          gcongr
          rw [← abs_neg (toDouble early - early)]
          exact abs_add_le _ _
  have earlyNear : |toDouble early - early| ≤ 1 / 8 := by
    refine earlyMoved.trans ?_
    change (2 : ℚ) ^ lastPlaceDouble early / 2 ≤ 1 / 8
    norm_num at fine
    linarith
  have lateMoved : |toDouble late - late| ≤ 2 ^ lastPlaceDouble late / 2 :=
    lateMoved
  by_cases high : 0 ≤ lastPlaceDouble late
  · -- The later number is far above the earlier one.
    obtain ⟨large, unit⟩ := le_of_le_lastPlaceDouble high
    have small := lt_of_lastPlaceDouble_le low
    have gap := abs_sub_abs_le_abs_sub late early
    rw [abs_sub_comm] at gap
    linarith
  · have place : (2 : ℚ) ^ lastPlaceDouble late ≤ 2 ^ (-1 : ℤ) :=
      zpow_le_zpow_right₀ (by norm_num) (by omega)
    norm_num at place
    linarith

/-- So are the sums of different whole numbers with one number. -/
theorem half_le_of_add_ne
    {early late : ℤ} {offset : ℚ}
    (differ : toDouble (early + offset) ≠ toDouble (late + offset)) :
    1 / 2 ≤ |toDouble (early + offset) - toDouble (late + offset)| := by
  refine half_le_abs_toDouble_sub ?_ differ
  have different : early ≠ late := by
    rintro rfl
    exact differ rfl
  rw [add_sub_add_right_eq_sub, ← Int.cast_sub, ← Int.cast_abs]
  exact_mod_cast Int.one_le_abs (sub_ne_zero.mpr different)

/-- Rounding does not move a number across one half. -/
theorem half_le_abs_toDouble
    {value : ℚ}
    (far : 1 / 2 ≤ |value|) :
    1 / 2 ≤ |toDouble value| := by
  have nonzero : value ≠ 0 := by
    rintro rfl
    norm_num at far
  have log : -1 ≤ Int.log 2 |value| := by
    refine (Int.zpow_le_iff_le_log (b := 2) (by norm_num)
      (abs_pos.mpr nonzero)).mp ?_
    rw [zpow_neg_one]
    norm_num at far ⊢
    exact far
  have place : lastPlaceDouble value = Int.log 2 |value| - 52 := by
    unfold lastPlaceDouble
    omega
  have digits : 2 ^ 52 ≤ (double.digits value).natAbs := by
    refine @le_natAbs_digits double value ?_ nonzero
    have normal : (-1074 : ℤ) < lastPlaceDouble value := by omega
    exact normal
  have rounded : |toDouble value| =
      (double.digits value).natAbs * 2 ^ lastPlaceDouble value := by
    rw [← round_double, FloatFormat.round, abs_mul, Nat.cast_natAbs,
      Int.cast_abs, abs_of_pos (zpow_pos (by norm_num : (0 : ℚ) < 2) _)]
    rfl
  calc (1 / 2 : ℚ) = 2 ^ 52 * 2 ^ (-53 : ℤ) := by norm_num
    _ ≤ (double.digits value).natAbs * 2 ^ lastPlaceDouble value := by
        refine mul_le_mul (by exact_mod_cast digits) ?_ (by positivity)
          (Nat.cast_nonneg _)
        exact zpow_le_zpow_right₀ (by norm_num) (by omega)
    _ = |toDouble value| := rounded.symm

namespace Floating

/-- A number of moderate size is finite. -/
theorem ofRat_eq_finite
    {value : ℚ}
    (moderate : |value| ≤ 2 ^ 1000) :
    ofRat value = .finite (toDouble value) := by
  have near := abs_toDouble_le value
  have one : (1 : ℚ) ≤ 2 ^ 1000 := one_le_pow₀ (by norm_num)
  have top : (2 : ℚ) ^ 1024 = 2 ^ 24 * 2 ^ 1000 := by rw [← pow_add]
  have below : 2 * |value| + 1 < 2 ^ 24 * 2 ^ 1000 := by
    generalize (2 : ℚ) ^ 1000 = bound at moderate one
    linarith only [moderate, one]
  rw [ofRat, if_pos (top ▸ near.trans_lt below)]

theorem eq_toDouble_of_ofRat
    {value nearest : ℚ}
    (rounded : ofRat value = .finite nearest) :
    nearest = toDouble value := by
  unfold ofRat at rounded
  split at rounded
  · exact (Floating.finite.inj rounded).symm
  · cases rounded

/-- A finite sum has finite terms. -/
theorem exists_of_add_eq_finite
    {left right : Floating} {sum : ℚ}
    (added : left.add right = .finite sum) :
    ∃ first second, left = .finite first ∧ right = .finite second ∧
      sum = toDouble (first + second) := by
  cases left with
  | finite first =>
      cases right with
      | finite second => exact ⟨_, _, rfl, rfl, eq_toDouble_of_ofRat added⟩
      | infinite | nan => cases added
  | infinite negative =>
      cases right with
      | finite | nan => cases added
      | infinite other =>
          simp only [add] at added
          split at added <;> cases added
  | nan => cases added

end Floating
end Library
