import Mathlib.Algebra.Order.Field.Power
import Mathlib.Data.Rat.Cast.Order
import Mathlib.Tactic.FieldSimp
import Mathlib.Tactic.Linarith
import Mathlib.Tactic.NormNum
import Mathlib.Tactic.Positivity
import Mathlib.Tactic.Ring
import Montage.Number.Basic

/-!
# Rounding to floating-point numbers

Every finite positive number has an interval of rationals that are nearer to it
than to any other number.  A quotient of naturals, and so a decimal, in that
interval is rounded to the number.
-/

namespace Montage.Double

/-! ## Quotients rounded to integers -/

/-- A rational is at most a half away from an integer, and only from an even one
exactly a half. -/
def NearestTo (number : ℚ) (integer : ℕ) : Prop :=
  (integer : ℚ) - 1 / 2 < number ∧ number < integer + 1 / 2 ∨
    integer % 2 = 0 ∧ (integer : ℚ) - 1 / 2 ≤ number ∧ number ≤ integer + 1 / 2

theorem roundQuotient_eq {numerator denominator integer : ℕ} (positive : 0 < denominator)
    (nearest : NearestTo (numerator / denominator) integer) :
    roundQuotient numerator denominator = integer := by
  have divided := Nat.div_add_mod numerator denominator
  have remainder := Nat.mod_lt numerator positive
  have denominatorPositive : (0 : ℚ) < denominator := by exact_mod_cast positive
  -- both cases bound twice the numerator by multiples of the denominator
  have bounds :
      (2 * (denominator * integer) < 2 * numerator + denominator ∧
        2 * numerator < 2 * (denominator * integer) + denominator) ∨
      integer % 2 = 0 ∧ 2 * (denominator * integer) ≤ 2 * numerator + denominator ∧
        2 * numerator ≤ 2 * (denominator * integer) + denominator := by
    rcases nearest with ⟨low, high⟩ | ⟨even, low, high⟩
    · rw [lt_div_iff₀ denominatorPositive] at low
      rw [div_lt_iff₀ denominatorPositive] at high
      have lower : (2 * (denominator * integer) : ℚ) < 2 * numerator + denominator := by linarith
      have upper : (2 * numerator : ℚ) < 2 * (denominator * integer) + denominator := by linarith
      exact .inl ⟨by exact_mod_cast lower, by exact_mod_cast upper⟩
    · rw [le_div_iff₀ denominatorPositive] at low
      rw [div_le_iff₀ denominatorPositive] at high
      have lower : (2 * (denominator * integer) : ℚ) ≤ 2 * numerator + denominator := by linarith
      have upper : (2 * numerator : ℚ) ≤ 2 * (denominator * integer) + denominator := by linarith
      exact .inr ⟨even, by exact_mod_cast lower, by exact_mod_cast upper⟩
  rw [roundQuotient]
  generalize numerator / denominator = quotient at *
  have above : integer ≤ quotient + 1 := by
    by_contra far
    have apart := Nat.mul_le_mul_left denominator (show quotient + 2 ≤ integer by omega)
    rw [Nat.mul_add] at apart
    omega
  have below : quotient ≤ integer := by
    by_contra far
    have apart := Nat.mul_le_mul_left denominator (show integer + 1 ≤ quotient by omega)
    rw [Nat.mul_add] at apart
    omega
  rcases Nat.lt_or_eq_of_le above with isQuotient | isNext
  · obtain rfl : integer = quotient := Nat.le_antisymm (Nat.le_of_lt_succ isQuotient) below
    rw [if_neg]
    omega
  · subst isNext
    rw [Nat.mul_add] at bounds
    rw [if_pos]
    omega

/-! ## Powers of integers as naturals -/

theorem zpow_of_nonneg (base : ℕ) {power : ℤ} (nonneg : 0 ≤ power) :
    (base : ℚ) ^ power = (Nat.pow base power.toNat : ℕ) := by
  rw [Nat.pow_eq, Nat.cast_pow, ← zpow_natCast, Int.toNat_of_nonneg nonneg]

theorem zpow_of_nonpos (base : ℕ) {power : ℤ} (nonpos : power ≤ 0) :
    (base : ℚ) ^ power = ((Nat.pow base (-power).toNat : ℕ) : ℚ)⁻¹ := by
  rw [← zpow_of_nonneg base (Int.neg_nonneg_of_nonpos nonpos), zpow_neg, inv_inv]

theorem zpow_eq_div (base : ℕ) (power : ℤ) :
    (base : ℚ) ^ power =
      (Nat.pow base power.toNat : ℕ) / (Nat.pow base (-power).toNat : ℕ) := by
  have one : Nat.pow base 0 = 1 := rfl
  rcases le_total 0 power with nonneg | nonpos
  · have noDivisor : (-power).toNat = 0 := by omega
    rw [zpow_of_nonneg base nonneg, noDivisor, one, Nat.cast_one, div_one]
  · have noFactor : power.toNat = 0 := by omega
    rw [zpow_of_nonpos base nonpos, noFactor, one, Nat.cast_one, one_div]

/-! ## The leading bit of a quotient -/

/-- A quotient rounded to a multiple of a power of two, as the number of that
rank. -/
def roundedAt (negative : Bool) (numerator denominator : ℕ) (scale : ℤ) : Double :=
  ofRank negative
    ((if 0 ≤ scale then roundQuotient numerator (denominator * Nat.pow 2 scale.toNat)
      else roundQuotient (numerator * Nat.pow 2 (-scale).toNat) denominator) +
      (scale + 1074).toNat * 4503599627370496)

theorem zpow_log2_le {natural : ℕ} (positive : 0 < natural) :
    (2 : ℚ) ^ (natural.log2 : ℤ) ≤ natural := by
  rw [zpow_natCast]
  exact_mod_cast Nat.log2_self_le positive.ne'

theorem lt_zpow_log2 (natural : ℕ) : (natural : ℚ) < 2 ^ ((natural.log2 : ℤ) + 1) := by
  have bound := Nat.lt_log2_self (n := natural)
  have whole : ((natural.log2 : ℤ) + 1) = ((natural.log2 + 1 : ℕ) : ℤ) := by push_cast; rfl
  rw [whole, zpow_natCast]
  exact_mod_cast bound

/-- A quotient is rounded at the scale that leaves it 53 bits, or at the least
scale. -/
theorem exists_ofQuotient_eq (negative : Bool) {numerator denominator : ℕ}
    (numeratorPositive : 0 < numerator) (denominatorPositive : 0 < denominator) :
    ∃ leading : ℤ, (2 : ℚ) ^ leading ≤ numerator / denominator ∧
      (numerator / denominator : ℚ) < 2 ^ (leading + 1) ∧
      ofQuotient negative numerator denominator =
        roundedAt negative numerator denominator (max (leading - 52) (-1074)) := by
  have positive : (0 : ℚ) < denominator := by exact_mod_cast denominatorPositive
  let width : ℤ := (numerator.log2 : ℤ) - denominator.log2
  have fits_iff : (if 0 ≤ width then decide (denominator * Nat.pow 2 width.toNat ≤ numerator)
      else decide (denominator ≤ numerator * Nat.pow 2 (-width).toNat)) = true ↔
      (2 : ℚ) ^ width ≤ numerator / denominator := by
    rw [le_div_iff₀ positive]
    split
    · next nonneg =>
        have power := zpow_of_nonneg 2 nonneg
        rw [Nat.cast_ofNat] at power
        rw [decide_eq_true_iff, power, mul_comm]
        norm_cast
    · next negative =>
        have power := zpow_of_nonpos 2 (Int.le_of_lt (not_le.mp negative))
        have scalePositive : (0 : ℚ) < (Nat.pow 2 (-width).toNat : ℕ) := by
          exact_mod_cast Nat.pow_pos (by decide)
        rw [Nat.cast_ofNat] at power
        rw [decide_eq_true_iff, power, inv_mul_le_iff₀ scalePositive, mul_comm]
        norm_cast
  have low : (2 : ℚ) ^ (width - 1) ≤ numerator / denominator := by
    rw [le_div_iff₀ positive]
    calc (2 : ℚ) ^ (width - 1) * denominator
        ≤ 2 ^ (width - 1) * 2 ^ ((denominator.log2 : ℤ) + 1) :=
          mul_le_mul_of_nonneg_left (lt_zpow_log2 denominator).le (by positivity)
      _ = 2 ^ (numerator.log2 : ℤ) := by
          rw [← zpow_add₀ (by norm_num)]
          congr 1
          omega
      _ ≤ numerator := zpow_log2_le numeratorPositive
  have high : (numerator / denominator : ℚ) < 2 ^ (width + 1) := by
    rw [div_lt_iff₀ positive]
    calc (numerator : ℚ) < 2 ^ ((numerator.log2 : ℤ) + 1) := lt_zpow_log2 numerator
      _ = 2 ^ (width + 1) * 2 ^ (denominator.log2 : ℤ) := by
          rw [← zpow_add₀ (by norm_num)]
          congr 1
          omega
      _ ≤ 2 ^ (width + 1) * denominator :=
          mul_le_mul_of_nonneg_left (zpow_log2_le denominatorPositive) (by positivity)
  by_cases fits : (2 : ℚ) ^ width ≤ numerator / denominator
  · refine ⟨width, fits, high, ?_⟩
    rw [ofQuotient, if_neg numeratorPositive.ne']
    simp only [width, fits_iff.mpr fits, if_true]
    rfl
  · refine ⟨width - 1, low, ?_, ?_⟩
    · rw [sub_add_cancel]
      exact not_le.mp fits
    · rw [ofQuotient, if_neg numeratorPositive.ne']
      simp only [width, mt fits_iff.mp fits]
      rfl

theorem roundedAt_eq (negative : Bool) {numerator denominator integer : ℕ} {scale : ℤ}
    (positive : 0 < denominator)
    (nearest : NearestTo ((numerator / denominator : ℚ) / 2 ^ scale) integer) :
    roundedAt negative numerator denominator scale =
      ofRank negative (integer + (scale + 1074).toNat * 4503599627370496) := by
  rw [roundedAt]
  split
  · next nonneg =>
      have power := zpow_of_nonneg 2 nonneg
      rw [Nat.cast_ofNat] at power
      rw [power, div_div, ← Nat.cast_mul] at nearest
      have scalePositive : 0 < Nat.pow 2 scale.toNat := Nat.pow_pos (by decide)
      rw [roundQuotient_eq (Nat.mul_pos positive scalePositive) nearest]
  · next negativeScale =>
      have power := zpow_of_nonpos 2 (Int.le_of_lt (not_le.mp negativeScale))
      rw [Nat.cast_ofNat] at power
      rw [power, div_inv_eq_mul, div_mul_eq_mul_div, ← Nat.cast_mul] at nearest
      rw [roundQuotient_eq positive nearest]

/-! ## The interval of a number -/

/-- The place of a number in the order of magnitudes. -/
def rank (number : Double) : ℕ :=
  number.exponent.val * 4503599627370496 + number.fraction.val

theorem ofRank_rank {number : Double} (finite : number.isFinite = true) :
    ofRank number.negative number.rank = number := by
  obtain ⟨negative, ⟨exponent, exponentBound⟩, ⟨fraction, fractionBound⟩⟩ := number
  have small : exponent < 2047 := of_decide_eq_true finite
  have inRange : exponent * 4503599627370496 + fraction < 2047 * 4503599627370496 := by omega
  rw [rank, ofRank, dif_pos inRange]
  simp only [Double.mk.injEq, Fin.mk.injEq, true_and]
  omega

/-- How far the interval of a number reaches down, in units of its last bit.  Below
a power of two numbers lie twice as close. -/
def reachBelow (number : Double) : ℚ :=
  if number.fraction.val = 0 ∧ 1 < number.exponent.val then 1 / 4 else 1 / 2

/-- A rational lies in the interval of a number.  The ends of the interval belong to
it if the significand is even. -/
def Attracts (number : Double) (rational : ℚ) : Prop :=
  (number.significand : ℚ) - number.reachBelow < rational / 2 ^ number.scale ∧
      rational / 2 ^ number.scale < number.significand + 1 / 2 ∨
    number.significand % 2 = 0 ∧
      (number.significand : ℚ) - number.reachBelow ≤ rational / 2 ^ number.scale ∧
      rational / 2 ^ number.scale ≤ number.significand + 1 / 2

theorem Attracts.le {number : Double} {rational : ℚ} (attracts : number.Attracts rational) :
    (number.significand : ℚ) - number.reachBelow ≤ rational / 2 ^ number.scale ∧
      rational / 2 ^ number.scale ≤ number.significand + 1 / 2 := by
  rcases attracts with ⟨low, high⟩ | ⟨_, low, high⟩
  · exact ⟨low.le, high.le⟩
  · exact ⟨low, high⟩

theorem reachBelow_le (number : Double) : number.reachBelow ≤ 1 / 2 := by
  rw [reachBelow]
  split <;> norm_num

theorem reachBelow_pos (number : Double) : 0 < number.reachBelow := by
  rw [reachBelow]
  split <;> norm_num

theorem Attracts.nearestTo {number : Double} {rational : ℚ}
    (attracts : number.Attracts rational) :
    NearestTo (rational / 2 ^ number.scale) number.significand := by
  have reach := number.reachBelow_le
  rcases attracts with ⟨low, high⟩ | ⟨even, low, high⟩
  · exact .inl ⟨by linarith, high⟩
  · exact .inr ⟨even, by linarith, high⟩

theorem one_le_significand {number : Double} (positive : 0 < number.significand) :
    (1 : ℚ) ≤ number.significand := by
  exact_mod_cast positive

theorem Attracts.pos {number : Double} {rational : ℚ} (attracts : number.Attracts rational)
    (positive : 0 < number.significand) : 0 < rational := by
  have atLeastOne := one_le_significand positive
  have reach := number.reachBelow_le
  have scaled : 0 < rational / 2 ^ number.scale := by linarith [attracts.le.1]
  exact (div_pos_iff_of_pos_right (by positivity)).mp scaled

theorem significand_scale_of_exponent_eq_zero (number : Double)
    (least : number.exponent.val = 0) :
    number.significand = number.fraction.val ∧ number.scale = -1074 := by
  rw [significand, scale, if_pos least, least]
  exact ⟨rfl, rfl⟩

theorem significand_scale_of_exponent_ne_zero (number : Double)
    (normal : number.exponent.val ≠ 0) :
    number.significand = number.fraction.val + 4503599627370496 ∧
      number.scale = (number.exponent.val : ℤ) - 1075 := by
  rw [significand, scale, if_neg normal, max_eq_left (Nat.one_le_iff_ne_zero.mpr normal)]
  exact ⟨rfl, rfl⟩

theorem significand_lt (number : Double) : number.significand < 9007199254740992 := by
  have bound := number.fraction.isLt
  rw [significand]
  split <;> omega

theorem cast_significand_le (number : Double) :
    (number.significand : ℚ) ≤ 9007199254740991 := by
  exact_mod_cast Nat.le_of_lt_succ number.significand_lt

theorem significand_of_power {number : Double} (isPower : number.fraction.val = 0)
    (normal : 1 < number.exponent.val) : (number.significand : ℚ) = 4503599627370496 := by
  rw [(significand_scale_of_exponent_ne_zero number (by omega)).1, isPower]
  norm_num

theorem reachBelow_of_power {number : Double} (isPower : number.fraction.val = 0)
    (normal : 1 < number.exponent.val) : number.reachBelow = 1 / 4 := by
  rw [reachBelow, if_pos ⟨isPower, normal⟩]

/-- The scale at which a rational in the interval of a number is rounded.  Just
below a power of two it is one less than that of the number. -/
theorem leading_cases {number : Double} {rational : ℚ} {leading : ℤ}
    (positive : 0 < number.significand) (attracts : number.Attracts rational)
    (low : (2 : ℚ) ^ leading ≤ rational) (high : rational < 2 ^ (leading + 1)) :
    max (leading - 52) (-1074) = number.scale ∨
      number.fraction.val = 0 ∧ 1 < number.exponent.val ∧ leading = number.scale + 51 := by
  have unit : (0 : ℚ) < 2 ^ number.scale := by positivity
  -- where the rational lies in units of the last bit tells where its leading bit is
  have leading_lt (bits : ℕ) (below : rational / 2 ^ number.scale < 2 ^ bits) :
      leading < number.scale + bits := by
    rw [div_lt_iff₀ unit, ← zpow_natCast, ← zpow_add₀ (by norm_num)] at below
    have := (zpow_lt_zpow_iff_right₀ (by norm_num : (1 : ℚ) < 2)).mp (low.trans_lt below)
    omega
  have le_leading (bits : ℕ) (above : (2 : ℚ) ^ bits ≤ rational / 2 ^ number.scale) :
      number.scale + bits ≤ leading := by
    rw [le_div_iff₀ unit, ← zpow_natCast, ← zpow_add₀ (by norm_num)] at above
    have := (zpow_lt_zpow_iff_right₀ (by norm_num : (1 : ℚ) < 2)).mp (above.trans_lt high)
    omega
  obtain ⟨atLeast, atMost⟩ := attracts.le
  have small := number.cast_significand_le
  have atMostBits := leading_lt 53 (by norm_num; linarith)
  by_cases least : number.exponent.val ≤ 1
  · left
    have isLeast : number.scale = -1074 := by
      rw [scale, max_eq_right least]
      rfl
    omega
  · obtain ⟨isSignificand, isScale⟩ :=
      significand_scale_of_exponent_ne_zero number (by omega)
    have atLeastScale : -1074 ≤ number.scale := by omega
    by_cases full : (2 : ℚ) ^ 52 ≤ rational / 2 ^ number.scale
    · have := le_leading 52 full
      left
      omega
    · right
      have isPower : number.fraction.val = 0 := by
        by_contra notPower
        have : (4503599627370497 : ℚ) ≤ number.significand := by
          exact_mod_cast (show 4503599627370497 ≤ number.significand by omega)
        have reach := number.reachBelow_le
        apply full
        norm_num
        linarith
      have normal : 1 < number.exponent.val := by omega
      have whole := significand_of_power isPower normal
      have reach := reachBelow_of_power isPower normal
      have above := le_leading 51 (by norm_num; linarith)
      have below := leading_lt 52 (not_le.mp full)
      exact ⟨isPower, normal, by omega⟩

theorem rank_eq (number : Double) :
    number.rank =
      number.significand + (number.scale + 1074).toNat * 4503599627370496 := by
  by_cases least : number.exponent.val = 0
  · obtain ⟨isSignificand, isScale⟩ := significand_scale_of_exponent_eq_zero number least
    rw [rank, isSignificand, isScale, least]
    omega
  · obtain ⟨isSignificand, isScale⟩ := significand_scale_of_exponent_ne_zero number least
    rw [rank, isSignificand, isScale]
    omega

/-- Just below a power of two, twice the bits round up to that power. -/
theorem Attracts.nearestTo_finer {number : Double} {rational : ℚ}
    (attracts : number.Attracts rational) (isPower : number.fraction.val = 0)
    (normal : 1 < number.exponent.val) (below : rational < 2 ^ (number.scale + 52)) :
    NearestTo (rational / 2 ^ (number.scale - 1)) 9007199254740992 := by
  have unit : (0 : ℚ) < 2 ^ number.scale := by positivity
  have whole := significand_of_power isPower normal
  have reach := reachBelow_of_power isPower normal
  have doubled : rational / 2 ^ (number.scale - 1) = 2 * (rational / 2 ^ number.scale) := by
    rw [zpow_sub_one₀ (by norm_num)]
    field_simp
  have scaledBelow : rational / 2 ^ number.scale < 4503599627370496 := by
    rw [div_lt_iff₀ unit]
    rw [zpow_add₀ (by norm_num)] at below
    norm_num at below
    linarith
  have atLeast := attracts.le.1
  rw [doubled]
  right
  refine ⟨by norm_num, ?_, ?_⟩
  · push_cast
    linarith
  · push_cast
    linarith

/-- A quotient in the interval of a number is rounded to that number. -/
theorem ofQuotient_eq {number : Double} {numerator denominator : ℕ}
    (finite : number.isFinite = true) (positive : 0 < number.significand)
    (denominatorPositive : 0 < denominator)
    (attracts : number.Attracts (numerator / denominator)) :
    ofQuotient number.negative numerator denominator = number := by
  have quotientPositive := attracts.pos positive
  have numeratorPositive : 0 < numerator := by
    rcases Nat.eq_zero_or_pos numerator with rfl | numeratorPositive
    · simp at quotientPositive
    · exact numeratorPositive
  obtain ⟨leading, low, high, rounded⟩ :=
    exists_ofQuotient_eq number.negative numeratorPositive denominatorPositive
  rw [rounded]
  rcases leading_cases positive attracts low high with same | ⟨isPower, normal, isLeading⟩
  · rw [same, roundedAt_eq _ denominatorPositive attracts.nearestTo, ← rank_eq,
      ofRank_rank finite]
  · obtain ⟨isSignificand, isScale⟩ :=
      significand_scale_of_exponent_ne_zero number (by omega)
    have finer : max (leading - 52) (-1074) = number.scale - 1 := by omega
    have next : leading + 1 = number.scale + 52 := by omega
    have below : (numerator / denominator : ℚ) < 2 ^ (number.scale + 52) := next ▸ high
    have nearest := attracts.nearestTo_finer isPower normal below
    have sameRank : 9007199254740992 + (number.scale - 1 + 1074).toNat * 4503599627370496 =
        number.rank := by
      rw [rank, isPower, isScale]
      omega
    rw [finer, roundedAt_eq _ denominatorPositive nearest, sameRank, ofRank_rank finite]

/-! ## Decimals -/

theorem scale_bounds {number : Double} (finite : number.isFinite = true) :
    -1074 ≤ number.scale ∧ number.scale ≤ 971 := by
  have small : number.exponent.val < 2047 := of_decide_eq_true finite
  rw [scale]
  omega

theorem Attracts.lt_zpow {number : Double} {rational : ℚ} (finite : number.isFinite = true)
    (attracts : number.Attracts rational) : rational < 2 ^ (1024 : ℤ) := by
  have unit : (0 : ℚ) < 2 ^ number.scale := by positivity
  have small := number.cast_significand_le
  have scaled : rational / 2 ^ number.scale < 2 ^ (53 : ℤ) := by
    norm_num
    linarith [attracts.le.2]
  rw [div_lt_iff₀ unit, ← zpow_add₀ (by norm_num)] at scaled
  refine scaled.trans_le (zpow_le_zpow_right₀ (by norm_num) ?_)
  have := (scale_bounds finite).2
  omega

theorem Attracts.zpow_le {number : Double} {rational : ℚ} (finite : number.isFinite = true)
    (positive : 0 < number.significand) (attracts : number.Attracts rational) :
    (2 : ℚ) ^ (-1075 : ℤ) ≤ rational := by
  have unit : (0 : ℚ) < 2 ^ number.scale := by positivity
  have atLeastOne := one_le_significand positive
  have reach := number.reachBelow_le
  have scaled : (2 : ℚ) ^ (-1 : ℤ) ≤ rational / 2 ^ number.scale := by
    norm_num
    linarith [attracts.le.1]
  rw [le_div_iff₀ unit, ← zpow_add₀ (by norm_num)] at scaled
  refine le_trans (zpow_le_zpow_right₀ (by norm_num) ?_) scaled
  have := (scale_bounds finite).1
  omega

/-- A power of ten has more than three times as many bits as its exponent says, above
one and below it. -/
theorem zpow_two_le_zpow_ten {power : ℤ} (nonneg : 0 ≤ power) :
    (2 : ℚ) ^ (3 * power) ≤ 10 ^ power := by
  obtain ⟨natural, rfl⟩ := Int.eq_ofNat_of_zero_le nonneg
  rw [zpow_mul, zpow_natCast, zpow_natCast]
  exact pow_le_pow_left₀ (by positivity) (by norm_num) natural

theorem zpow_ten_le_zpow_two {power : ℤ} (nonpos : power ≤ 0) :
    (10 : ℚ) ^ power ≤ 2 ^ (3 * power) := by
  have flipped := zpow_two_le_zpow_ten (Int.neg_nonneg_of_nonpos nonpos)
  rw [mul_neg, zpow_neg, zpow_neg] at flipped
  exact (inv_le_inv₀ (by positivity) (by positivity)).mp flipped

/-- A decimal in the interval of a number reads as that number. -/
theorem ofDecimal_eq {number : Double} {digits : ℕ} {power : ℤ}
    (finite : number.isFinite = true) (positive : 0 < number.significand)
    (attracts : number.Attracts (digits * 10 ^ power)) :
    ofDecimal number.negative digits power = number := by
  have digitsPositive : 0 < digits := by
    rcases Nat.eq_zero_or_pos digits with rfl | digitsPositive
    · have := attracts.pos positive
      simp at this
    · exact digitsPositive
  have notGreat : ¬ 400 < power := by
    intro great
    have : (2 : ℚ) ^ (1024 : ℤ) ≤ digits * 10 ^ power := by
      calc (2 : ℚ) ^ (1024 : ℤ) ≤ 2 ^ (3 * power) := zpow_le_zpow_right₀ (by norm_num) (by omega)
        _ ≤ 10 ^ power := zpow_two_le_zpow_ten (by omega)
        _ ≤ digits * 10 ^ power :=
          le_mul_of_one_le_left (by positivity) (by exact_mod_cast digitsPositive)
    exact absurd (attracts.lt_zpow finite) (not_lt.mpr this)
  have notSmall : ¬ (digits.log2 : ℤ) + 1 + 3 * power < -1080 := by
    intro small
    have negative : power ≤ 0 := by omega
    have : (digits : ℚ) * 10 ^ power < 2 ^ (-1075 : ℤ) := by
      calc (digits : ℚ) * 10 ^ power
          ≤ 2 ^ ((digits.log2 : ℤ) + 1) * 2 ^ (3 * power) :=
            mul_le_mul (lt_zpow_log2 digits).le (zpow_ten_le_zpow_two negative) (by positivity)
              (by positivity)
        _ = 2 ^ ((digits.log2 : ℤ) + 1 + 3 * power) := (zpow_add₀ (by norm_num) _ _).symm
        _ < 2 ^ (-1075 : ℤ) := zpow_lt_zpow_right₀ (by norm_num) (by omega)
    exact absurd (attracts.zpow_le finite positive) (not_le.mpr this)
  rw [ofDecimal, if_neg digitsPositive.ne', if_neg notGreat, if_neg notSmall]
  split
  · next nonneg =>
      have factor := zpow_of_nonneg 10 nonneg
      rw [Nat.cast_ofNat] at factor
      apply ofQuotient_eq finite positive Nat.one_pos
      rw [Nat.cast_one, div_one, Nat.cast_mul, ← factor]
      exact attracts
  · next negative =>
      have factor := zpow_of_nonpos 10 (Int.le_of_lt (not_le.mp negative))
      rw [Nat.cast_ofNat] at factor
      have unitPositive : 0 < Nat.pow 10 (-power).toNat := Nat.pow_pos (by decide)
      apply ofQuotient_eq finite positive unitPositive
      rw [div_eq_mul_inv, ← factor]
      exact attracts

end Montage.Double
