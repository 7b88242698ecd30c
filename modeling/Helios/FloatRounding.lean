import Helios.FloatArith
import Mathlib.Algebra.Order.Field.Power

/-! Rounding to binary64 errs by at most one part in 2 ^ 53. -/

namespace Helios.Double

theorem pow2_eq_zpow (exponent : Int) : pow2 exponent = (2 : ℚ) ^ exponent := by
  rw [pow2]
  split
  · next positive =>
      lift exponent to Nat using positive
      simp
  · next negative =>
      have flipped : exponent = -((-exponent).toNat : Int) := by omega
      conv_rhs => rw [flipped, zpow_neg, zpow_natCast]
      simp

theorem num_div_den (q : ℚ) (positive : 0 < q) : q = (q.num.natAbs : ℚ) / (q.den : ℚ) := by
  have sign : (q.num.natAbs : ℤ) = q.num :=
    Int.natAbs_of_nonneg (le_of_lt (Rat.num_pos.mpr positive))
  have same : ((q.num.natAbs : ℤ) : ℚ) = (q.num : ℚ) := congrArg Int.cast sign
  rw [Int.cast_natCast] at same
  rw [same, Rat.num_div_den]

/-- The exponent is a lower bound: no rational lies below its own power. -/
theorem pow2_exponentOf_le (q : ℚ) (positive : 0 < q) : pow2 (exponentOf q) ≤ q := by
  have numPositive : q.num.natAbs ≠ 0 := Int.natAbs_ne_zero.mpr (ne_of_gt (Rat.num_pos.mpr positive))
  have numLow : ((2 ^ Nat.log2 q.num.natAbs : Nat) : ℚ) ≤ (q.num.natAbs : ℚ) :=
    Nat.cast_le.mpr (Nat.log2_self_le numPositive)
  have denHigh : (q.den : ℚ) ≤ ((2 ^ (Nat.log2 q.den + 1) : Nat) : ℚ) :=
    Nat.cast_le.mpr (le_of_lt Nat.lt_log2_self)
  have denPositive : (0 : ℚ) < q.den := by exact_mod_cast q.den_pos
  unfold exponentOf
  dsimp only
  split
  · calc
      pow2 ((Nat.log2 q.num.natAbs : Int) - (Nat.log2 q.den : Int) - 1)
        = (2 : ℚ) ^ Nat.log2 q.num.natAbs / (2 : ℚ) ^ (Nat.log2 q.den + 1) := by
          rw [pow2_eq_zpow, sub_sub, zpow_sub₀ (by norm_num), zpow_natCast]
          norm_cast
      _ ≤ (q.num.natAbs : ℚ) / (q.den : ℚ) := by
          push_cast at numLow denHigh
          gcongr
      _ = q := (num_div_den q positive).symm
  · next small => exact not_lt.mp small

theorem roundEven_close (q : ℚ) : |(roundEven q : ℚ) - q| ≤ 1 / 2 := by
  have low := Int.floor_le q
  have high := Int.lt_floor_add_one q
  unfold roundEven
  dsimp only
  rw [abs_le]
  split
  · constructor <;> linarith
  · split
    · push_cast
      constructor <;> linarith
    · split
      · constructor <;> linarith
      · push_cast
        constructor <;> linarith

theorem round_close (q : ℚ) (nonneg : 0 ≤ q) : |(round q).value - q| ≤ q / 2 ^ 53 := by
  rcases eq_or_lt_of_le nonneg with zero | positive
  · rw [← zero, round, if_pos rfl]
    norm_num
  · have ulp : 0 < pow2 (exponentOf q - 52) := by
      rw [pow2_eq_zpow]
      exact zpow_pos (by norm_num) _
    have below : pow2 (exponentOf q - 52) * 2 ^ 52 ≤ q := by
      have power := pow2_exponentOf_le q positive
      rw [pow2_eq_zpow, zpow_sub₀ (by norm_num)]
      rw [pow2_eq_zpow] at power
      have cancel : (2 : ℚ) ^ exponentOf q / (2 : ℚ) ^ (52 : Int) * 2 ^ 52 =
          (2 : ℚ) ^ exponentOf q := by
        rw [zpow_ofNat, div_mul_cancel₀ _ (by norm_num)]
      rw [cancel]
      exact power
    have near := roundEven_close (q / pow2 (exponentOf q - 52))
    rw [round, if_neg (ne_of_gt positive), abs_of_pos positive]
    calc
      |(roundEven (q / pow2 (exponentOf q - 52)) : ℚ) * pow2 (exponentOf q - 52) - q|
        = |(roundEven (q / pow2 (exponentOf q - 52)) : ℚ) - q / pow2 (exponentOf q - 52)| *
            pow2 (exponentOf q - 52) := by
          rw [← abs_of_pos ulp, ← abs_mul, abs_of_pos ulp, sub_mul,
            div_mul_cancel₀ _ (ne_of_gt ulp)]
      _ ≤ 1 / 2 * pow2 (exponentOf q - 52) := by gcongr
      _ ≤ q / 2 ^ 53 := by
          rw [le_div_iff₀ (by norm_num)]
          linarith

theorem round_le (q : ℚ) (nonneg : 0 ≤ q) : (round q).value ≤ q * (1 + 1 / 2 ^ 53) := by
  have close := (abs_le.mp (round_close q nonneg)).2
  linarith

theorem le_round (q : ℚ) (nonneg : 0 ≤ q) : q * (1 - 1 / 2 ^ 53) ≤ (round q).value := by
  have close := (abs_le.mp (round_close q nonneg)).1
  linarith

theorem round_nonneg (q : ℚ) (nonneg : 0 ≤ q) : 0 ≤ (round q).value :=
  le_trans (mul_nonneg nonneg (by norm_num)) (le_round q nonneg)

theorem round_pos (q : ℚ) (positive : 0 < q) : 0 < (round q).value := by
  have scaled : 0 < q * (1 - 1 / 2 ^ 53) := mul_pos positive (by norm_num)
  exact lt_of_lt_of_le scaled (le_round q (le_of_lt positive))

theorem roundEven_nonpos (q : ℚ) (nonpos : q ≤ 0) : roundEven q ≤ 0 := by
  have low : ⌊q⌋ ≤ 0 := by
    rw [Int.floor_le_iff]
    exact lt_of_le_of_lt nonpos (by norm_num)
  have whole : ⌊q⌋ = 0 → q - ⌊q⌋ ≤ 0 := by
    intro zero
    rw [zero, Int.cast_zero, sub_zero]
    exact nonpos
  unfold roundEven
  dsimp only
  rcases lt_or_eq_of_le low with negative | zero
  · split
    · exact low
    · split
      · exact negative
      · split
        · exact low
        · exact negative
  · have small := whole zero
    rw [if_pos (by linarith)]
    exact low

theorem round_nonpos (q : ℚ) (nonpos : q ≤ 0) : (round q).value ≤ 0 := by
  rw [round]
  split
  · exact le_refl _
  · have ulp : 0 < pow2 (exponentOf |q| - 52) := by
      rw [pow2_eq_zpow]
      exact zpow_pos (by norm_num) _
    have quotient : q / pow2 (exponentOf |q| - 52) ≤ 0 :=
      div_nonpos_of_nonpos_of_nonneg nonpos (le_of_lt ulp)
    have whole : (roundEven (q / pow2 (exponentOf |q| - 52)) : ℚ) ≤ 0 :=
      Int.cast_nonpos.mpr (roundEven_nonpos _ quotient)
    exact mul_nonpos_of_nonpos_of_nonneg whole (le_of_lt ulp)

end Helios.Double
