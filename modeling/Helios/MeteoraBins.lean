import Helios.Meteora

/-! What the fixed-point operators of a DLMM quote compute on decoded bins, and which bin an
id stands for. -/

namespace Helios.Meteora

open Machine

/-- The values of a decoded bin. -/
structure BinFits (bin : MeteoraBin) : Prop where
  amountX : bin.amountX < 2 ^ 64
  amountY : bin.amountY < 2 ^ 64
  price : bin.price < 2 ^ 128

/-- The array of a bin is the floor of its id by 70. -/
theorem binIdToBinArrayIndex_eq (binId : Int) : binIdToBinArrayIndex binId = binId / 70 := by
  rw [binIdToBinArrayIndex, maxBinArraySize]
  rcases Int.le_total 0 binId with nonneg | nonpos
  · rw [Int.tdiv_eq_ediv_of_nonneg nonneg]
    simp only [not_lt.mpr nonneg, false_and, if_false]
  · obtain ⟨size, rfl⟩ : ∃ size, binId = -size := ⟨-binId, by omega⟩
    rw [Int.neg_tdiv, Int.neg_tmod, Int.tdiv_eq_ediv_of_nonneg (by omega),
      Int.tmod_eq_emod_of_nonneg (by omega)]
    split
    · omega
    · omega

/-- The place of a bin in its array is the remainder. -/
theorem getBin_eq (binArrays : HashMap Int MeteoraBinArray) (binId : Int) :
    getBin binArrays binId =
      (HashMap.get binArrays (binId / 70)).bind
        (fun binArray => binArray.bins[(binId % 70).toNat]?) := by
  rw [getBin, binIdToBinArrayIndex_eq]
  cases HashMap.get binArrays (binId / 70) with
  | none => rfl
  | some binArray =>
      have inside : ¬ (binId < binArrayLowerBinId (binId / 70) ∨
          binId > binArrayUpperBinId (binId / 70)) := by
        rw [binArrayUpperBinId, binArrayLowerBinId, maxBinArraySize]
        omega
      simp only [Option.bind_eq_bind, Option.bind_some]
      rw [if_neg inside, binArrayUpperBinId, binArrayLowerBinId, maxBinArraySize]
      split
      · congr 2
        omega
      · congr 2
        omega

/-! The operators, as long as nothing leaves its type. -/

theorem divCeil_eq (a b : Nat) (positive : 0 < b) :
    divCeil a b = a / b + if a % b = 0 then 0 else 1 := by
  have split := Nat.div_add_mod a b
  have less := Nat.mod_lt a positive
  rw [divCeil]
  by_cases exact : a % b = 0
  · rw [if_pos exact, Nat.add_zero]
    apply Nat.div_eq_of_lt_le
    · rw [Nat.mul_comm]
      omega
    · rw [Nat.add_mul, Nat.mul_comm]
      omega
  · rw [if_neg exact]
    apply Nat.div_eq_of_lt_le
    · rw [Nat.add_mul, Nat.mul_comm]
      omega
    · rw [Nat.add_mul, Nat.add_mul, Nat.mul_comm]
      omega

/-- The last step of both operators: one more if anything is left and the rounding is up. -/
theorem rounded_eq (quotient left : Nat) (rounding : Rounding) (fits : quotient + 1 ≤ u128Max) :
    (if rounding = .up ∧ 0 < left then saturatingAdd128 quotient 1 else quotient) =
      if rounding = .up then quotient + (if left = 0 then 0 else 1) else quotient := by
  rw [saturatingAdd128, Nat.min_eq_left fits]
  cases rounding with
  | up =>
      rcases Nat.eq_zero_or_pos left with exact | more
      · simp [exact]
      · simp [more, Nat.ne_of_gt more]
  | down => simp

/-- A product of a word and a price, shifted down by 64 bits. -/
theorem mulShrU64_eq (x y : Nat) (rounding : Rounding) (smallX : x < 2 ^ 64)
    (smallY : y < 2 ^ 128) :
    mulShrU64 x y rounding =
      some (if rounding = .up then divCeil (x * y) (2 ^ 64) else x * y / 2 ^ 64) := by
  have high : wrap 64 (y / 2 ^ 64) = y / 2 ^ 64 := wrap_of_lt 64 _ (by omega)
  have whole : x * y = 2 ^ 64 * (x * (y / 2 ^ 64)) + x * (y % 2 ^ 64) := by
    calc x * y = x * (2 ^ 64 * (y / 2 ^ 64) + y % 2 ^ 64) := by rw [Nat.div_add_mod]
      _ = 2 ^ 64 * (x * (y / 2 ^ 64)) + x * (y % 2 ^ 64) := by ring
  have quotient : x * (y / 2 ^ 64) + x * (y % 2 ^ 64) / 2 ^ 64 = x * y / 2 ^ 64 := by
    rw [whole, Nat.mul_add_div (by norm_num)]
  have rest : x * (y % 2 ^ 64) % 2 ^ 64 = x * y % 2 ^ 64 := by
    rw [whole, Nat.mul_add_mod]
  have bound : x * y ≤ (2 ^ 64 - 1) * (2 ^ 128 - 1) :=
    Nat.mul_le_mul (by omega) (by omega)
  have fits : x * y / 2 ^ 64 + 1 ≤ u128Max := by
    rw [u128Max]
    omega
  simp only [mulShrU64, scaleOffset, high]
  simp only [wrap, quotient, rest]
  rw [if_neg (by omega), rounded_eq _ _ _ fits, divCeil_eq _ _ (by norm_num)]

/-- A word shifted up by 64 bits, divided by a price. -/
theorem shlDivU64_eq (x y : Nat) (rounding : Rounding) (smallX : x < 2 ^ 64) (positive : 0 < y) :
    shlDivU64 x y rounding =
      some (if rounding = .up then divCeil (x * 2 ^ 64) y else x * 2 ^ 64 / y) := by
  have numerator : wrap 128 (x * 2 ^ 64) = x * 2 ^ 64 := wrap_of_lt 128 _ (by omega)
  have less : x * 2 ^ 64 / y ≤ x * 2 ^ 64 := Nat.div_le_self _ _
  have fits : x * 2 ^ 64 / y + 1 ≤ u128Max := by
    rw [u128Max]
    omega
  simp only [shlDivU64, scaleOffset, numerator, if_neg (Nat.ne_of_gt positive)]
  rw [rounded_eq _ _ _ fits, divCeil_eq _ _ positive]

theorem shlDivU64_zero (x : Nat) (rounding : Rounding) : shlDivU64 x 0 rounding = none := if_pos rfl

theorem totalFee_le (binStep : Nat) (parameters : MeteoraStaticParameters)
    (vParameters : MeteoraVariableParameters) :
    totalFee binStep parameters vParameters ≤ maxFeeRate := Nat.min_le_right _ _

end Helios.Meteora
