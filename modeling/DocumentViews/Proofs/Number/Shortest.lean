import DocumentViews.Number.Shortest
import DocumentViews.Proofs.Number.Nearest

-- The search for the shortest decimal ends in a decimal that reads back as the double. A
-- grid finer than a quarter of the double's unit has a multiple that does, and twenty grids
-- are enough to come to such a one.

set_option autoImplicit false

open DocumentViews.Dyadic

namespace DocumentViews.Decimal

variable {numerator denominator mantissa : Nat} {unit : Int} {tie : Tie}

theorem on_grid_reads {exponent : Int} {decimal : Decimal}
    (found : onGrid? numerator denominator tie exponent = some decimal) :
    decimal.ReadsAs (nearestBits numerator denominator) := by
  simp only [onGrid?] at found
  split at found
  next low =>
    split at found
    next high =>
      cases found
      split
      next => exact low
      next =>
        split
        next => exact high
        next =>
          cases tie with
          | even =>
              dsimp only
              split
              next => exact low
              next => exact high
          | up => exact high
    next =>
      cases found
      exact low
  next =>
    split at found
    next high =>
      cases found
      exact high
    next => cases found

theorem decimal_ratio (digits : Nat) (exponent : Int) :
    ((digits * powerAbove 10 exponent : Nat) : ℚ) / powerBelow 10 exponent = digits * 10 ^ exponent := by
  rw [Nat.cast_mul, mul_div_assoc, power_ratio (by decide)]
  norm_num

theorem low_reads (normal : Normal mantissa unit) (present : 0 < denominator)
    (same : (numerator / denominator : ℚ) = mantissa * 2 ^ unit) {exponent : Int}
    (fine : (10 : ℚ) ^ exponent ≤ 2 ^ unit / 4) :
    (⟨numerator * powerBelow 10 exponent / (denominator * powerAbove 10 exponent), exponent⟩ : Decimal).ReadsAs
      (nearestBits numerator denominator) := by
  have divisor : 0 < denominator * powerAbove 10 exponent := Nat.mul_pos present (power_above_pos 10 (by decide) _)
  have positive : (0 : ℚ) < 10 ^ exponent := by positivity
  have scaled := scaled_ratio (by decide : 0 < 10) exponent numerator denominator
  push_cast [same] at scaled
  generalize multiple : numerator * powerBelow 10 exponent / (denominator * powerAbove 10 exponent) = below
  have lower : (below : ℚ) * 10 ^ exponent ≤ mantissa * 2 ^ unit := by
    have : below * (denominator * powerAbove 10 exponent) ≤ numerator * powerBelow 10 exponent := by
      rw [← multiple]
      exact Nat.div_mul_le_self _ _
    rw [← le_div_iff₀ positive, ← scaled, le_div_iff₀ (by exact_mod_cast divisor)]
    exact_mod_cast this
  have upper : (mantissa : ℚ) * 2 ^ unit < (below + 1) * 10 ^ exponent := by
    have : numerator * powerBelow 10 exponent < (below + 1) * (denominator * powerAbove 10 exponent) := by
      rw [← multiple, Nat.mul_comm _ (denominator * _)]
      exact Nat.lt_mul_div_succ _ divisor
    rw [← div_lt_iff₀ positive, ← scaled, div_lt_iff₀ (by exact_mod_cast divisor)]
    exact_mod_cast this
  rw [ReadsAs, nearest_exact normal present same]
  refine nearest_below normal (power_below_pos 10 (by decide) _) ?_ ?_
  · rw [decimal_ratio]
    exact lower
  · rw [decimal_ratio]
    linarith

theorem on_grid_found {exponent : Int} (normal : Normal mantissa unit) (present : 0 < denominator)
    (same : (numerator / denominator : ℚ) = mantissa * 2 ^ unit) (fine : (10 : ℚ) ^ exponent ≤ 2 ^ unit / 4) :
    ∃ decimal, onGrid? numerator denominator tie exponent = some decimal := by
  have low := low_reads normal present same fine
  simp only [onGrid?, if_pos low]
  split
  next => exact ⟨_, rfl⟩
  next => exact ⟨_, rfl⟩

theorem search_reads (steps : Nat) (exponent : Int)
    (found : ∃ step < steps, ∃ decimal, onGrid? numerator denominator tie (exponent - step) = some decimal) :
    (search numerator denominator tie steps exponent).ReadsAs (nearestBits numerator denominator) := by
  induction steps generalizing exponent with
  | zero =>
      obtain ⟨_, outside, _⟩ := found
      cases outside
  | succ steps ih =>
      simp only [search]
      cases here : onGrid? numerator denominator tie exponent with
      | some decimal => exact on_grid_reads here
      | none =>
          refine ih (exponent - 1) ?_
          obtain ⟨step, inside, decimal, there⟩ := found
          cases step with
          | zero =>
              rw [Nat.cast_zero, sub_zero, here] at there
              cases there
          | succ step =>
              refine ⟨step, Nat.lt_of_succ_lt_succ inside, decimal, ?_⟩
              rw [← there]
              congr 1
              push_cast
              ring

-- The last of the twenty grids below a number whose first bit stands at this power of two.
def lastGrid (log : Int) : Int := (log * 1233).fdiv 4096 - 17

theorem last_grid_table : ∀ shift : Nat, shift < 2098 →
    powerAbove 10 (lastGrid (shift - 1074)) * powerBelow 2 (shift - 1128) ≤
      powerAbove 2 (shift - 1128) * powerBelow 10 (lastGrid (shift - 1074)) := by
  decide +kernel

theorem last_grid_fine {log : Int} (lowest : -1074 ≤ log) (highest : log < 1024) :
    (10 : ℚ) ^ lastGrid log ≤ 2 ^ (log - 54) := by
  obtain ⟨shift, rfl⟩ : ∃ shift : Nat, log = shift - 1074 := ⟨(log + 1074).toNat, by omega⟩
  have table := last_grid_table shift (by omega)
  rw [show (shift : Int) - 1074 - 54 = shift - 1128 by ring]
  have ten := power_ratio (by decide : 0 < 10) (lastGrid (shift - 1074))
  have two := power_ratio (by decide : 0 < 2) ((shift : Int) - 1128)
  push_cast at ten two
  rw [← ten, ← two, div_le_div_iff₀ (by exact_mod_cast power_below_pos 10 (by decide) _)
    (by exact_mod_cast power_below_pos 2 (by decide) _)]
  exact_mod_cast table

theorem shortest_reads (normal : Normal mantissa unit) (finite : unit ≤ 971) (present : 0 < denominator)
    (same : (numerator / denominator : ℚ) = mantissa * 2 ^ unit) (tie : Tie) :
    (shortest numerator denominator tie).ReadsAs (nearestBits numerator denominator) := by
  have scale : (0 : ℚ) < 2 ^ unit := by positivity
  have near : (mantissa : ℚ) * 2 ^ unit - 2 ^ unit / 4 < numerator / denominator := by linarith
  have positive := numerator_positive normal near
  obtain ⟨lower, upper⟩ := floor_log_spec positive present
  rw [same] at lower upper
  have lowest := normal.lowest
  have least := le_log normal upper
  have most := log_lt normal lower
  have fine : (10 : ℚ) ^ lastGrid (floorLog2 numerator denominator) ≤ 2 ^ unit / 4 := by
    refine (last_grid_fine (by omega) (by omega)).trans ?_
    rw [show (2 : ℚ) ^ unit / 4 = 2 ^ (unit - 2) by rw [zpow_sub₀ (by norm_num)]; norm_num]
    exact zpow_le_zpow_right₀ (by norm_num) (by omega)
  refine search_reads 20 _ ⟨19, by decide, ?_⟩
  rw [show startExponent numerator denominator - (19 : Nat) = lastGrid (floorLog2 numerator denominator) by
    simp only [startExponent, lastGrid]
    omega]
  exact on_grid_found normal present same fine

end DocumentViews.Decimal
