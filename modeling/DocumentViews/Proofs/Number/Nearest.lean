import Mathlib.Algebra.Order.Field.Power
import Mathlib.Tactic.FieldSimp
import Mathlib.Tactic.Linarith
import Mathlib.Tactic.Positivity
import Mathlib.Tactic.Ring
import DocumentViews.Number.Binary

-- The nearest double depends only on the ratio as a rational number, a double's own ratio
-- reads back as the double, and so does every ratio less than a quarter of a unit below it.
-- A quarter and not a half, because below a power of two the doubles lie twice as close.

set_option autoImplicit false

namespace DocumentViews.Dyadic

variable {numerator denominator otherNumerator otherDenominator mantissa : Nat} {exponent unit : Int}

theorem power_above_pos (base : Nat) (positive : 0 < base) (exponent : Int) : 0 < powerAbove base exponent :=
  Nat.pow_pos positive

theorem power_below_pos (base : Nat) (positive : 0 < base) (exponent : Int) : 0 < powerBelow base exponent :=
  Nat.pow_pos positive

theorem power_ratio {base : Nat} (positive : 0 < base) (exponent : Int) :
    (powerAbove base exponent : ℚ) / powerBelow base exponent = (base : ℚ) ^ exponent := by
  have nonzero : (base : ℚ) ≠ 0 := by exact_mod_cast positive.ne'
  rw [div_eq_iff (by exact_mod_cast (power_below_pos base positive exponent).ne')]
  change ((base ^ exponent.toNat : Nat) : ℚ) = base ^ exponent * ((base ^ (-exponent).toNat : Nat) : ℚ)
  rw [Nat.cast_pow, Nat.cast_pow, ← zpow_natCast, ← zpow_natCast, ← zpow_add₀ nonzero]
  congr 1
  omega

theorem scaled_ratio {base : Nat} (positive : 0 < base) (exponent : Int) (numerator denominator : Nat) :
    ((numerator * powerBelow base exponent : Nat) : ℚ) / (denominator * powerAbove base exponent : Nat) =
      numerator / denominator / (base : ℚ) ^ exponent := by
  rw [← power_ratio positive exponent, Nat.cast_mul, Nat.cast_mul, div_div_div_eq, mul_comm (denominator : ℚ)]

theorem scaled_le_iff {base : Nat} (positive : 0 < base) (present : 0 < denominator) :
    denominator * powerAbove base exponent ≤ numerator * powerBelow base exponent ↔
      (base : ℚ) ^ exponent ≤ numerator / denominator := by
  have below : (0 : ℚ) < powerBelow base exponent := by exact_mod_cast power_below_pos base positive exponent
  have divisor : (0 : ℚ) < denominator := by exact_mod_cast present
  rw [← power_ratio positive exponent, div_le_div_iff₀ below divisor, mul_comm denominator]
  exact_mod_cast Iff.rfl

theorem log_bounds {number : Nat} (positive : 0 < number) :
    (2 : ℚ) ^ (number.log2 : Int) ≤ number ∧ (number : ℚ) < 2 ^ ((number.log2 : Int) + 1) := by
  constructor
  · rw [zpow_natCast]
    exact_mod_cast Nat.log2_self_le positive.ne'
  · have upper : number < 2 ^ (number.log2 + 1) := Nat.lt_log2_self
    rw [show (number.log2 : Int) + 1 = ((number.log2 + 1 : Nat) : Int) by push_cast; rfl, zpow_natCast]
    exact_mod_cast upper

theorem floor_log_spec (positive : 0 < numerator) (present : 0 < denominator) :
    (2 : ℚ) ^ floorLog2 numerator denominator ≤ numerator / denominator ∧
      (numerator / denominator : ℚ) < 2 ^ (floorLog2 numerator denominator + 1) := by
  have divisor : (0 : ℚ) < denominator := by exact_mod_cast present
  obtain ⟨lower, upper⟩ := log_bounds positive
  obtain ⟨otherLower, otherUpper⟩ := log_bounds present
  have two : (2 : ℚ) ≠ 0 := by norm_num
  simp only [floorLog2]
  split
  next fits =>
    refine ⟨by exact_mod_cast (scaled_le_iff (by decide) present).mp fits, ?_⟩
    rw [div_lt_iff₀ divisor]
    calc (numerator : ℚ) < 2 ^ ((numerator.log2 : Int) + 1) := upper
      _ = 2 ^ ((numerator.log2 : Int) - denominator.log2 + 1) * 2 ^ (denominator.log2 : Int) := by
          rw [← zpow_add₀ two]
          congr 1
          omega
      _ ≤ 2 ^ ((numerator.log2 : Int) - denominator.log2 + 1) * denominator := by gcongr
  next exceeds =>
    constructor
    · rw [le_div_iff₀ divisor]
      calc (2 : ℚ) ^ ((numerator.log2 : Int) - denominator.log2 - 1) * denominator
          ≤ 2 ^ ((numerator.log2 : Int) - denominator.log2 - 1) * 2 ^ ((denominator.log2 : Int) + 1) := by gcongr
        _ = 2 ^ (numerator.log2 : Int) := by
          rw [← zpow_add₀ two]
          congr 1
          omega
        _ ≤ numerator := lower
    · rw [sub_add_cancel, ← not_le]
      exact fun fits => exceeds ((scaled_le_iff (by decide) present).mpr (by exact_mod_cast fits))

theorem two_power_lt {left right : Int} (less : (2 : ℚ) ^ left < 2 ^ right) : left < right :=
  (zpow_lt_zpow_iff_right₀ (by norm_num : (1 : ℚ) < 2)).mp less

theorem floor_log_unique (positive : 0 < numerator) (present : 0 < denominator)
    (lower : (2 : ℚ) ^ exponent ≤ numerator / denominator) (upper : (numerator / denominator : ℚ) < 2 ^ (exponent + 1)) :
    floorLog2 numerator denominator = exponent := by
  obtain ⟨otherLower, otherUpper⟩ := floor_log_spec positive present
  have less := two_power_lt (lower.trans_lt otherUpper)
  have greater := two_power_lt (otherLower.trans_lt upper)
  omega

theorem round_of_near (present : 0 < denominator)
    (near : |(numerator / denominator : ℚ) - mantissa| < 1 / 2) : roundToEven numerator denominator = mantissa := by
  have divisor : (0 : ℚ) < denominator := by exact_mod_cast present
  obtain ⟨above, below⟩ := abs_lt.mp near
  have upper : 2 * numerator < (2 * mantissa + 1) * denominator := by
    have : (numerator / denominator : ℚ) < mantissa + 1 / 2 := by linarith
    rw [div_lt_iff₀ divisor] at this
    have doubled : (2 * numerator : ℚ) < (2 * mantissa + 1) * denominator := by linarith
    exact_mod_cast doubled
  have lower : 2 * mantissa * denominator < 2 * numerator + denominator := by
    have : (mantissa : ℚ) - 1 / 2 < numerator / denominator := by linarith
    rw [lt_div_iff₀ divisor] at this
    have doubled : (2 * mantissa * denominator : ℚ) < 2 * numerator + denominator := by linarith
    exact_mod_cast doubled
  have divided := Nat.div_add_mod numerator denominator
  have remains := Nat.mod_lt numerator present
  simp only [roundToEven]
  generalize numerator / denominator = quotient at *
  generalize numerator % denominator = rest at *
  subst divided
  have quotientLe : quotient ≤ mantissa := by
    have : denominator * (2 * quotient) < denominator * (2 * mantissa + 1) := by nlinarith
    have := Nat.lt_of_mul_lt_mul_left this
    omega
  have mantissaLe : mantissa ≤ quotient + 1 := by
    have : denominator * (2 * mantissa) < denominator * (2 * quotient + 3) := by nlinarith
    have := Nat.lt_of_mul_lt_mul_left this
    omega
  rcases Nat.eq_or_lt_of_le quotientLe with rfl | less
  · have : 2 * rest < denominator := by nlinarith
    rw [if_pos this]
  · obtain rfl : mantissa = quotient + 1 := by omega
    have : denominator < 2 * rest := by nlinarith
    rw [if_neg (by omega), if_pos this]

theorem round_scaled (scale : Nat) (positive : 0 < scale) :
    roundToEven (scale * numerator) (scale * denominator) = roundToEven numerator denominator := by
  have compared : ∀ left right : Nat, (scale * left < scale * right) = (left < right) := fun left right =>
    propext (Nat.mul_lt_mul_left positive)
  simp only [roundToEven, Nat.mul_div_mul_left _ _ positive, Nat.mul_mod_mul_left, ← Nat.mul_assoc, Nat.mul_comm 2 scale]
  simp only [Nat.mul_assoc, gt_iff_lt, compared]

theorem round_congr (present : 0 < denominator) (otherPresent : 0 < otherDenominator)
    (same : numerator * otherDenominator = otherNumerator * denominator) :
    roundToEven numerator denominator = roundToEven otherNumerator otherDenominator := by
  rw [← round_scaled otherDenominator otherPresent, Nat.mul_comm otherDenominator numerator, same,
    Nat.mul_comm otherNumerator, Nat.mul_comm otherDenominator, round_scaled denominator present]

theorem nearest_congr (present : 0 < denominator) (otherPresent : 0 < otherDenominator)
    (same : (numerator / denominator : ℚ) = otherNumerator / otherDenominator) :
    nearestBits numerator denominator = nearestBits otherNumerator otherDenominator := by
  have divisor : (denominator : ℚ) ≠ 0 := by exact_mod_cast present.ne'
  have otherDivisor : (otherDenominator : ℚ) ≠ 0 := by exact_mod_cast otherPresent.ne'
  have crossed : numerator * otherDenominator = otherNumerator * denominator := by
    exact_mod_cast (div_eq_div_iff divisor otherDivisor).mp same
  by_cases zero : numerator = 0
  · have otherZero : otherNumerator = 0 := by
      rw [zero, Nat.zero_mul] at crossed
      exact (Nat.mul_eq_zero.mp crossed.symm).resolve_right present.ne'
    rw [nearestBits, nearestBits, if_pos zero, if_pos otherZero]
  · have otherNonzero : otherNumerator ≠ 0 := by
      rintro rfl
      rw [Nat.zero_mul] at crossed
      exact (Nat.mul_eq_zero.mp crossed).elim zero otherPresent.ne'
    have spec := floor_log_spec (Nat.pos_of_ne_zero otherNonzero) otherPresent
    rw [← same] at spec
    have logs := floor_log_unique (Nat.pos_of_ne_zero zero) present spec.1 spec.2
    simp only [nearestBits, if_neg zero, if_neg otherNonzero, logs]
    congr 2
    refine round_congr (Nat.mul_pos present (power_above_pos 2 (by decide) _))
      (Nat.mul_pos otherPresent (power_above_pos 2 (by decide) _)) ?_
    rw [Nat.mul_mul_mul_comm, crossed, Nat.mul_mul_mul_comm]

-- A positive finite double in its one form: a mantissa of 53 bits, or less where the
-- exponent cannot go down any more.
structure Normal (mantissa : Nat) (unit : Int) : Prop where
  positive : 0 < mantissa
  bounded : mantissa < 0x20000000000000
  lowest : -1074 ≤ unit
  full : 0x10000000000000 ≤ mantissa ∨ unit = -1074

def bitsOf (mantissa : Nat) (unit : Int) : Nat := (unit + 1074).toNat * 0x10000000000000 + mantissa

theorem nearest_of_unit (positive : 0 < numerator) (present : 0 < denominator)
    (lower : (2 : ℚ) ^ exponent ≤ numerator / denominator) (upper : (numerator / denominator : ℚ) < 2 ^ (exponent + 1))
    (isUnit : max (exponent - 52) (-1074) = unit)
    (near : |(numerator / denominator : ℚ) / 2 ^ unit - mantissa| < 1 / 2) :
    nearestBits numerator denominator = min infinityBits (bitsOf mantissa unit) := by
  have log := floor_log_unique positive present lower upper
  have rounded : roundToEven (numerator * powerBelow 2 unit) (denominator * powerAbove 2 unit) = mantissa := by
    refine round_of_near (Nat.mul_pos present (power_above_pos 2 (by decide) _)) ?_
    rw [scaled_ratio (by decide)]
    exact_mod_cast near
  simp only [nearestBits, if_neg positive.ne', log, isUnit, rounded]
  rfl

theorem log_lt (normal : Normal mantissa unit) (lower : (2 : ℚ) ^ exponent ≤ mantissa * 2 ^ unit) :
    exponent < unit + 53 := by
  have most : (mantissa : ℚ) < 2 ^ 53 := by exact_mod_cast normal.bounded
  refine two_power_lt (lower.trans_lt ?_)
  rw [zpow_add₀ (by norm_num), mul_comm]
  gcongr
  exact_mod_cast most

theorem le_log (normal : Normal mantissa unit) (upper : (mantissa : ℚ) * 2 ^ unit < 2 ^ (exponent + 1)) :
    unit ≤ exponent := by
  have least : (1 : ℚ) ≤ mantissa := by exact_mod_cast normal.positive
  have scale : (0 : ℚ) < 2 ^ unit := by positivity
  have : unit < exponent + 1 := two_power_lt (lt_of_le_of_lt (by nlinarith) upper)
  omega

theorem numerator_positive (normal : Normal mantissa unit)
    (near : (mantissa : ℚ) * 2 ^ unit - 2 ^ unit / 4 < numerator / denominator) : 0 < numerator := by
  refine Nat.pos_of_ne_zero ?_
  rintro rfl
  have least : (1 : ℚ) ≤ mantissa := by exact_mod_cast normal.positive
  have scale : (0 : ℚ) < 2 ^ unit := by positivity
  rw [Nat.cast_zero, zero_div] at near
  nlinarith

theorem quotient_near {ratio scale center : ℚ} (positive : 0 < scale) (above : (center - 1 / 2) * scale < ratio)
    (below : ratio < (center + 1 / 2) * scale) : |ratio / scale - center| < 1 / 2 := by
  have lower := (lt_div_iff₀ positive).mpr above
  have upper := (div_lt_iff₀ positive).mpr below
  rw [abs_lt]
  constructor <;> linarith

-- The unit in which a ratio just below a double is rounded is the double's own, or half of
-- it where the double is a power of two.
theorem unit_below (normal : Normal mantissa unit) {ratio : ℚ} (below : ratio ≤ mantissa * 2 ^ unit)
    (near : (mantissa : ℚ) * 2 ^ unit - 2 ^ unit / 4 < ratio) (lower : 2 ^ exponent ≤ ratio)
    (upper : ratio < 2 ^ (exponent + 1)) :
    (max (exponent - 52) (-1074) = unit ∧ |ratio / 2 ^ unit - mantissa| < 1 / 2) ∨
      (mantissa = 0x10000000000000 ∧ -1074 < unit ∧ max (exponent - 52) (-1074) = unit - 1 ∧
        |ratio / 2 ^ (unit - 1) - (0x20000000000000 : Nat)| < 1 / 2) := by
  have scale : (0 : ℚ) < 2 ^ unit := by positivity
  have shifted : ∀ shift : Nat, (2 : ℚ) ^ (unit + shift) = 2 ^ shift * 2 ^ unit := by
    intro shift
    rw [zpow_add₀ (by norm_num), zpow_natCast, mul_comm]
  have exponentLt := log_lt normal (lower.trans below)
  have lowest := normal.lowest
  by_cases inside : unit = -1074 ∨ 2 ^ 52 * 2 ^ unit ≤ ratio
  · left
    refine ⟨?_, ?_⟩
    · rcases inside with atBottom | above
      · omega
      · have : unit + (52 : Nat) < exponent + 1 := two_power_lt ((shifted 52).trans_le above |>.trans_lt upper)
        omega
    · exact quotient_near scale (by linarith) (by linarith)
  · right
    rw [not_or, not_le] at inside
    obtain ⟨notBottom, small⟩ := inside
    have full := normal.full.resolve_right notBottom
    have isPower : mantissa = 0x10000000000000 := by
      have : (mantissa : ℚ) < 2 ^ 52 + 1 := by
        refine lt_of_mul_lt_mul_right ?_ scale.le
        linarith
      have : mantissa < 2 ^ 52 + 1 := by exact_mod_cast this
      omega
    subst isPower
    have half : (2 : ℚ) ^ (unit - 1) = 2 ^ unit / 2 := by
      rw [zpow_sub_one₀ (by norm_num), div_eq_mul_inv]
    refine ⟨rfl, by omega, ?_, ?_⟩
    · have : exponent < unit + (52 : Nat) := two_power_lt (lower.trans_lt (small.trans_eq (shifted 52).symm))
      have : unit + (51 : Nat) < exponent + 1 := by
        refine two_power_lt (lt_of_le_of_lt ?_ upper)
        rw [shifted]
        push_cast at near
        linarith
      omega
    · push_cast at near below ⊢
      rw [half]
      exact quotient_near (by positivity) (by linarith) (by linarith)

theorem nearest_below (normal : Normal mantissa unit) (present : 0 < denominator)
    (below : (numerator / denominator : ℚ) ≤ mantissa * 2 ^ unit)
    (near : (mantissa : ℚ) * 2 ^ unit - 2 ^ unit / 4 < numerator / denominator) :
    nearestBits numerator denominator = min infinityBits (bitsOf mantissa unit) := by
  have positive := numerator_positive normal near
  obtain ⟨lower, upper⟩ := floor_log_spec positive present
  rcases unit_below normal below near lower upper with ⟨isUnit, rounds⟩ | ⟨rfl, above, isHalf, rounds⟩
  · exact nearest_of_unit positive present lower upper isUnit rounds
  · rw [nearest_of_unit positive present lower upper isHalf rounds]
    refine congrArg (min infinityBits) ?_
    simp only [bitsOf]
    omega

theorem nearest_exact (normal : Normal mantissa unit) (present : 0 < denominator)
    (same : (numerator / denominator : ℚ) = mantissa * 2 ^ unit) :
    nearestBits numerator denominator = min infinityBits (bitsOf mantissa unit) := by
  have scale : (0 : ℚ) < 2 ^ unit := by positivity
  exact nearest_below normal present same.le (by linarith)

end DocumentViews.Dyadic
