import Mathlib.Algebra.Order.Floor.Semifield
import Mathlib.Data.Rat.Floor
import Montage.Number.Shortest
import Montage.Proofs.Number.Rounding

/-!
# Shortest decimals

The shortest decimal of a number lies in the number's interval, so it reads as that
number.  Some decimal always does: of two neighbours with seventeen digits at least
one is near enough.
-/

namespace Montage.Double

def Decimal.value (decimal : Decimal) : ℚ := decimal.digits * 10 ^ decimal.power

theorem zpow_ten_eq_div (power : ℤ) :
    (10 : ℚ) ^ power = (Nat.pow 10 power.toNat : ℕ) / (Nat.pow 10 (-power).toNat : ℕ) := by
  rw [← zpow_eq_div, Nat.cast_ofNat]

theorem cast_pow_ten_pos (power : ℕ) : (0 : ℚ) < (Nat.pow 10 power : ℕ) := by
  exact_mod_cast Nat.pow_pos (by decide)

/-! ## Decimals in an interval -/

theorem Interval.contains_iff {bounds : Interval} (positive : 0 < bounds.denominator)
    (decimal : Decimal) :
    bounds.contains decimal = true ↔
      (bounds.lower / bounds.denominator : ℚ) < decimal.value ∧
          decimal.value < bounds.upper / bounds.denominator ∨
        bounds.closed = true ∧
          (bounds.lower / bounds.denominator : ℚ) ≤ decimal.value ∧
          decimal.value ≤ bounds.upper / bounds.denominator := by
  have denominatorPos : (0 : ℚ) < bounds.denominator := by exact_mod_cast positive
  have unitPos := cast_pow_ten_pos (-decimal.power).toNat
  have value : decimal.value =
      (decimal.digits * Nat.pow 10 decimal.power.toNat : ℕ) /
        (Nat.pow 10 (-decimal.power).toNat : ℕ) := by
    rw [Decimal.value, zpow_ten_eq_div, Nat.cast_mul, mul_div_assoc]
  rw [contains, value, div_lt_div_iff₀ denominatorPos unitPos,
    div_lt_div_iff₀ unitPos denominatorPos, div_le_div_iff₀ denominatorPos unitPos,
    div_le_div_iff₀ unitPos denominatorPos]
  norm_cast
  split
  · next closed =>
      rw [decide_eq_true_iff]
      constructor
      · exact fun within => .inr ⟨closed, within⟩
      · rintro (⟨low, high⟩ | ⟨_, within⟩)
        · exact ⟨low.le, high.le⟩
        · exact within
  · next notClosed =>
      rw [decide_eq_true_iff]
      constructor
      · exact .inl
      · rintro (within | ⟨closed, _⟩)
        · exact within
        · exact absurd closed notClosed

theorem interval_denominator_pos (number : Double) : 0 < number.interval.denominator :=
  Nat.pow_pos (by decide)

theorem quarter_eq (scale : ℤ) :
    ((Nat.pow 2 (scale - 2).toNat : ℕ) : ℚ) / (Nat.pow 2 (-(scale - 2)).toNat : ℕ) =
      2 ^ scale / 4 := by
  rw [← zpow_eq_div, Nat.cast_ofNat, zpow_sub₀ (by norm_num)]
  norm_num

theorem interval_value (number : Double) :
    (number.interval.value / number.interval.denominator : ℚ) =
      number.significand * 2 ^ number.scale := by
  simp only [interval]
  rw [Nat.cast_mul, mul_div_assoc, quarter_eq]
  push_cast
  ring

theorem interval_upper (number : Double) :
    (number.interval.upper / number.interval.denominator : ℚ) =
      (number.significand + 1 / 2) * 2 ^ number.scale := by
  simp only [interval]
  rw [Nat.cast_mul, mul_div_assoc, quarter_eq]
  push_cast
  ring

theorem interval_lower {number : Double} (positive : 0 < number.significand) :
    (number.interval.lower / number.interval.denominator : ℚ) =
      (number.significand - number.reachBelow) * 2 ^ number.scale := by
  simp only [interval]
  rw [Nat.cast_mul, mul_div_assoc, quarter_eq, reachBelow]
  split
  · rw [Nat.cast_sub (by omega)]
    push_cast
    ring
  · rw [Nat.cast_sub (by omega)]
    push_cast
    ring

theorem contains_iff_attracts {number : Double} (positive : 0 < number.significand)
    (decimal : Decimal) :
    number.interval.contains decimal = true ↔ number.Attracts decimal.value := by
  have unit : (0 : ℚ) < 2 ^ number.scale := by positivity
  rw [Interval.contains_iff number.interval_denominator_pos, interval_lower positive,
    interval_upper, Attracts, lt_div_iff₀ unit, div_lt_iff₀ unit, le_div_iff₀ unit,
    div_le_iff₀ unit]
  simp only [interval, decide_eq_true_iff]

/-! ## Neighbours -/

section Neighbours

variable (bounds : Interval) (power : ℤ)

theorem Interval.neighbours_quotient :
    ((bounds.value * Nat.pow 10 (-power).toNat : ℕ) : ℚ) /
        (bounds.denominator * Nat.pow 10 power.toNat : ℕ) =
      bounds.value / bounds.denominator / 10 ^ power := by
  rw [zpow_ten_eq_div, div_div_div_eq, Nat.cast_mul, Nat.cast_mul]

theorem Interval.neighbours_fst_le :
    (bounds.neighbours power).1.value ≤ bounds.value / bounds.denominator := by
  have unit : (0 : ℚ) < 10 ^ power := by positivity
  have nonneg : (0 : ℚ) ≤ bounds.value / bounds.denominator / 10 ^ power := by positivity
  have whole := Nat.floor_le nonneg
  rw [← bounds.neighbours_quotient, Nat.floor_div_eq_div, bounds.neighbours_quotient,
    le_div_iff₀ unit] at whole
  exact whole

theorem Interval.lt_neighbours_snd :
    (bounds.value / bounds.denominator : ℚ) < (bounds.neighbours power).2.value := by
  have unit : (0 : ℚ) < 10 ^ power := by positivity
  have next := Nat.lt_floor_add_one (bounds.value / bounds.denominator / 10 ^ power : ℚ)
  rw [← bounds.neighbours_quotient, Nat.floor_div_eq_div, bounds.neighbours_quotient,
    div_lt_iff₀ unit] at next
  rw [neighbours, Decimal.value, Nat.cast_succ]
  exact next

theorem Interval.neighbours_apart :
    (bounds.neighbours power).2.value = (bounds.neighbours power).1.value + 10 ^ power := by
  rw [neighbours, Decimal.value, Decimal.value, Nat.cast_succ, add_one_mul]

end Neighbours

theorem Interval.contains_of_candidate {bounds : Interval} {power : ℤ} {decimal : Decimal}
    (taken : bounds.candidate? power = some decimal) : bounds.contains decimal = true := by
  rw [candidate?] at taken
  dsimp only at taken
  split at taken
  · next belowInside aboveInside =>
      rw [Option.some.injEq] at taken
      split at taken
      · exact taken ▸ belowInside
      · exact taken ▸ aboveInside
  · next belowInside _ => exact Option.some.inj taken ▸ belowInside
  · next _ aboveInside => exact Option.some.inj taken ▸ aboveInside
  · cases taken

theorem Interval.candidate?_isSome {bounds : Interval} {power : ℤ}
    (near : bounds.contains (bounds.neighbours power).1 = true ∨
      bounds.contains (bounds.neighbours power).2 = true) :
    (bounds.candidate? power).isSome = true := by
  rw [candidate?]
  dsimp only
  split
  · rfl
  · rfl
  · rfl
  · next belowOutside aboveOutside =>
      rcases near with belowInside | aboveInside
      · rw [belowOutside] at belowInside
        cases belowInside
      · rw [aboveOutside] at aboveInside
        cases aboveInside

/-! ## The leading digit -/

theorem pow_length_toDigits_le {natural : ℕ} (positive : 0 < natural) :
    10 ^ ((Nat.toDigits 10 natural).length - 1) ≤ natural := by
  by_contra below
  by_cases short : (Nat.toDigits 10 natural).length - 1 = 0
  · rw [short, pow_zero] at below
    omega
  · have fewer := (Nat.length_toDigits_le_iff (by decide) (Nat.pos_of_ne_zero short)).mpr
      (not_le.mp below)
    omega

/-- Digits that are counted after a shift by some places tell the size without it. -/
theorem zpow_length_toDigits_le {numerator denominator shift : ℕ}
    (great : (1 : ℚ) ≤ numerator / denominator * 10 ^ shift) :
    (10 : ℚ) ^ (((Nat.toDigits 10 (numerator * 10 ^ shift / denominator)).length : ℤ) -
      shift - 1) ≤ numerator / denominator := by
  have unit : (0 : ℚ) < 10 ^ shift := by positivity
  have shifted : (numerator / denominator * 10 ^ shift : ℚ) =
      (numerator * 10 ^ shift : ℕ) / denominator := by
    push_cast
    ring
  have floorLe := Nat.floor_le (zero_le_one.trans great)
  have floorPos := Nat.floor_pos.mpr great
  rw [shifted, Nat.floor_div_eq_div] at floorPos floorLe
  have leading := pow_length_toDigits_le floorPos
  generalize numerator * 10 ^ shift / denominator = counted at leading floorLe ⊢
  have counts : ((Nat.toDigits 10 counted).length : ℤ) - shift - 1 =
      (((Nat.toDigits 10 counted).length - 1 : ℕ) : ℤ) - shift := by
    have := Nat.length_toDigits_pos (b := 10) (n := counted)
    omega
  rw [counts, zpow_sub₀ (by norm_num), zpow_natCast, zpow_natCast, div_le_iff₀ unit, shifted]
  exact le_trans (by exact_mod_cast leading) floorLe

theorem Interval.zpow_leadingPlace_le {bounds : Interval}
    (great : (10 : ℚ) ^ (-350 : ℤ) ≤ bounds.value / bounds.denominator) :
    (10 : ℚ) ^ (bounds.leadingPlace - 1) ≤ bounds.value / bounds.denominator := by
  apply zpow_length_toDigits_le
  rw [← zpow_natCast, ← div_le_iff₀ (by positivity), one_div, ← zpow_neg]
  exact great

/-! ## Seventeen digits -/

theorem zpow_ten_le_least : (10 : ℚ) ^ (-350 : ℤ) ≤ 2 ^ (-1074 : ℤ) := by
  have powers : (2 : ℚ) ^ 1074 ≤ 10 ^ 350 := by
    calc (2 : ℚ) ^ 1074 ≤ 2 ^ (90 * 12) := pow_le_pow_right₀ (by norm_num) (by norm_num)
      _ = (2 ^ 90) ^ 12 := pow_mul _ _ _
      _ ≤ (10 ^ 28) ^ 12 := pow_le_pow_left₀ (by positivity) (by norm_num) 12
      _ = 10 ^ (28 * 12) := (pow_mul _ _ _).symm
      _ ≤ 10 ^ 350 := pow_le_pow_right₀ (by norm_num) (by norm_num)
  rw [zpow_neg, zpow_neg]
  exact inv_anti₀ (by positivity) powers

theorem zpow_le_interval_value {number : Double} (positive : 0 < number.significand) :
    (10 : ℚ) ^ (-350 : ℤ) ≤ number.interval.value / number.interval.denominator := by
  have atLeastOne := one_le_significand positive
  have leastScale : -1074 ≤ number.scale := by
    rw [scale]
    omega
  rw [interval_value]
  calc (10 : ℚ) ^ (-350 : ℤ) ≤ 2 ^ (-1074 : ℤ) := zpow_ten_le_least
    _ ≤ 2 ^ number.scale := zpow_le_zpow_right₀ (by norm_num) leastScale
    _ ≤ number.significand * 2 ^ number.scale :=
      le_mul_of_one_le_left (by positivity) atLeastOne

/-- Decimals of seventeen digits lie closer than the units of the last bit. -/
theorem spacing_le {number : Double} (positive : 0 < number.significand) :
    (10 : ℚ) ^ (number.interval.leadingPlace - (17 : ℕ)) / 2 ^ number.scale ≤
      number.significand / 10 ^ 16 := by
  have unit : (0 : ℚ) < 2 ^ number.scale := by positivity
  have leading := Interval.zpow_leadingPlace_le (zpow_le_interval_value positive)
  have shorter : number.interval.leadingPlace - (17 : ℕ) =
      number.interval.leadingPlace - 1 - (16 : ℕ) := by omega
  rw [interval_value] at leading
  rw [shorter, zpow_sub₀ (by norm_num), zpow_natCast, div_le_iff₀ unit, div_mul_eq_mul_div,
    div_le_div_iff_of_pos_right (by positivity)]
  exact leading

/-- One of two neighbours that lie so close is in the interval. -/
theorem attracts_neighbour {number : Double} {power : ℤ}
    (spacing : (10 : ℚ) ^ power / 2 ^ number.scale ≤ number.significand / 10 ^ 16) :
    number.Attracts (number.interval.neighbours power).1.value ∨
      number.Attracts (number.interval.neighbours power).2.value := by
  have unit : (0 : ℚ) < 2 ^ number.scale := by positivity
  have small := number.cast_significand_le
  have reachPos := number.reachBelow_pos
  have below := number.interval.neighbours_fst_le power
  have above := number.interval.lt_neighbours_snd power
  have apart := congrArg (· / (2 : ℚ) ^ number.scale) (number.interval.neighbours_apart power)
  rw [interval_value, ← div_le_iff₀ unit] at below
  rw [interval_value, ← lt_div_iff₀ unit] at above
  rw [add_div] at apart
  by_cases atPower : number.fraction.val = 0 ∧ 1 < number.exponent.val
  · -- below a power of two the interval is narrow, but the upper neighbour is near
    have whole := significand_of_power atPower.1 atPower.2
    exact .inr (.inl ⟨by linarith, by linarith⟩)
  · have reach : number.reachBelow = 1 / 2 := by rw [reachBelow, if_neg atPower]
    by_cases near : (number.significand : ℚ) - 1 / 2 <
        (number.interval.neighbours power).1.value / 2 ^ number.scale
    · exact .inl (.inl ⟨by linarith, by linarith⟩)
    · exact .inr (.inl ⟨by linarith, by linarith⟩)

/-- The shortest decimal of a number lies in its interval. -/
theorem attracts_shortest {number : Double} (positive : 0 < number.significand) :
    number.Attracts number.interval.shortest.value := by
  have near := (attracts_neighbour (spacing_le positive)).imp (contains_iff_attracts positive _).mpr
    (contains_iff_attracts positive _).mpr
  have reached := Interval.candidate?_isSome near
  obtain ⟨decimal, found⟩ : ∃ decimal, ((List.range 17).map (· + 1)).findSome?
      (fun count => number.interval.candidate?
        (number.interval.leadingPlace - (count : ℕ))) = some decimal :=
    Option.isSome_iff_exists.mp (List.findSome?_isSome_iff.mpr ⟨17, by decide, reached⟩)
  obtain ⟨count, _, taken⟩ := List.exists_of_findSome?_eq_some found
  rw [← contains_iff_attracts positive, Interval.shortest, found]
  exact Interval.contains_of_candidate taken

end Montage.Double
