import Helios.FloatRounding

/-! Rounding to binary64 keeps the order of what it rounds, so that a bound which is itself
a binary64 number survives every operation. -/

namespace Helios.Double

theorem roundEven_intCast (n : Int) : roundEven (n : ℚ) = n := by
  unfold roundEven
  dsimp only
  rw [Int.floor_intCast, sub_self]
  rw [if_pos (by norm_num)]

theorem floor_le_roundEven (q : ℚ) : ⌊q⌋ ≤ roundEven q := by
  unfold roundEven
  dsimp only
  split_ifs <;> omega

theorem roundEven_le_floor (q : ℚ) : roundEven q ≤ ⌊q⌋ + 1 := by
  unfold roundEven
  dsimp only
  split_ifs <;> omega

theorem roundEven_mono (p q : ℚ) (le : p ≤ q) : roundEven p ≤ roundEven q := by
  rcases lt_or_eq_of_le (Int.floor_le_floor le) with below | same
  · calc roundEven p
      _ ≤ ⌊p⌋ + 1 := roundEven_le_floor p
      _ ≤ ⌊q⌋ := below
      _ ≤ roundEven q := floor_le_roundEven q
  · unfold roundEven
    dsimp only
    rw [same]
    have rest : p - (⌊q⌋ : ℚ) ≤ q - (⌊q⌋ : ℚ) := sub_le_sub_right le _
    split_ifs <;> first | omega | linarith

/-- The power above the exponent bounds from above. -/
theorem lt_pow2_exponentOf (q : ℚ) (positive : 0 < q) : q < pow2 (exponentOf q + 1) := by
  have numHigh : (q.num.natAbs : ℚ) < ((2 ^ (Nat.log2 q.num.natAbs + 1) : Nat) : ℚ) :=
    Nat.cast_lt.mpr Nat.lt_log2_self
  have denLow : ((2 ^ Nat.log2 q.den : Nat) : ℚ) ≤ (q.den : ℚ) :=
    Nat.cast_le.mpr (Nat.log2_self_le q.den_ne_zero)
  unfold exponentOf
  dsimp only
  split
  · next small => rwa [sub_add_cancel]
  · calc q
      _ = (q.num.natAbs : ℚ) / (q.den : ℚ) := num_div_den q positive
      _ < (2 : ℚ) ^ (Nat.log2 q.num.natAbs + 1) / (2 : ℚ) ^ Nat.log2 q.den := by
          push_cast at numHigh denLow
          have lowPositive : (0 : ℚ) < 2 ^ Nat.log2 q.den := by positivity
          exact div_lt_div₀ numHigh denLow (by positivity) lowPositive
      _ = pow2 ((Nat.log2 q.num.natAbs : Int) - (Nat.log2 q.den : Int) + 1) := by
          rw [pow2_eq_zpow, sub_add_eq_add_sub, zpow_sub₀ (by norm_num), zpow_natCast]
          norm_cast

theorem pow2_pos (exponent : Int) : 0 < pow2 exponent := by
  rw [pow2_eq_zpow]
  positivity

theorem pow2_le_iff (low high : Int) : pow2 low ≤ pow2 high ↔ low ≤ high := by
  rw [pow2_eq_zpow, pow2_eq_zpow]
  exact zpow_le_zpow_iff_right₀ (by norm_num)

theorem pow2_lt_iff (low high : Int) : pow2 low < pow2 high ↔ low < high := by
  rw [pow2_eq_zpow, pow2_eq_zpow]
  exact zpow_lt_zpow_iff_right₀ (by norm_num)

theorem pow2_add (first second : Int) : pow2 (first + second) = pow2 first * pow2 second := by
  rw [pow2_eq_zpow, pow2_eq_zpow, pow2_eq_zpow, zpow_add₀ (by norm_num)]

theorem round_of_pos (q : ℚ) (positive : 0 < q) :
    (round q).value = roundEven (q / pow2 (exponentOf q - 52)) * pow2 (exponentOf q - 52) := by
  rw [round, if_neg (ne_of_gt positive), abs_of_pos positive]

theorem pow2_52 : pow2 52 = ((4503599627370496 : Int) : ℚ) := by
  rw [pow2_eq_zpow]
  norm_num

theorem pow2_53 : pow2 53 = ((9007199254740992 : Int) : ℚ) := by
  rw [pow2_eq_zpow]
  norm_num

/-- A rounded number stays between the powers around it. -/
theorem round_bounds (q : ℚ) (positive : 0 < q) :
    pow2 (exponentOf q) ≤ (round q).value ∧ (round q).value ≤ pow2 (exponentOf q + 1) := by
  have ulp := pow2_pos (exponentOf q - 52)
  have low : pow2 (exponentOf q) = pow2 52 * pow2 (exponentOf q - 52) := by
    rw [← pow2_add, show (52 : Int) + (exponentOf q - 52) = exponentOf q by omega]
  have high : pow2 (exponentOf q + 1) = pow2 53 * pow2 (exponentOf q - 52) := by
    rw [← pow2_add, show (53 : Int) + (exponentOf q - 52) = exponentOf q + 1 by omega]
  rw [round_of_pos q positive, low, high, pow2_52, pow2_53]
  constructor
  · apply mul_le_mul_of_nonneg_right _ ulp.le
    have quotient : ((4503599627370496 : Int) : ℚ) ≤ q / pow2 (exponentOf q - 52) := by
      rw [le_div_iff₀ ulp, ← pow2_52, ← low]
      exact pow2_exponentOf_le q positive
    have rounded := roundEven_mono _ _ quotient
    rw [roundEven_intCast] at rounded
    exact Int.cast_le.mpr rounded
  · apply mul_le_mul_of_nonneg_right _ ulp.le
    have quotient : q / pow2 (exponentOf q - 52) ≤ ((9007199254740992 : Int) : ℚ) := by
      rw [div_le_iff₀ ulp, ← pow2_53, ← high]
      exact (lt_pow2_exponentOf q positive).le
    have rounded := roundEven_mono _ _ quotient
    rw [roundEven_intCast] at rounded
    exact Int.cast_le.mpr rounded

theorem round_mono (p q : ℚ) (nonneg : 0 ≤ p) (le : p ≤ q) :
    (round p).value ≤ (round q).value := by
  rcases eq_or_lt_of_le nonneg with zero | positive
  · rw [← zero]
    exact round_nonneg q (nonneg.trans le)
  · have positiveQ := positive.trans_le le
    have ordered : exponentOf p < exponentOf q + 1 := by
      rw [← pow2_lt_iff]
      calc pow2 (exponentOf p)
        _ ≤ p := pow2_exponentOf_le p positive
        _ ≤ q := le
        _ < pow2 (exponentOf q + 1) := lt_pow2_exponentOf q positiveQ
    rcases eq_or_lt_of_le (Int.lt_add_one_iff.mp ordered) with same | below
    · rw [round_of_pos p positive, round_of_pos q positiveQ, same]
      have ulp := pow2_pos (exponentOf q - 52)
      apply mul_le_mul_of_nonneg_right _ ulp.le
      exact_mod_cast roundEven_mono _ _ (div_le_div_of_nonneg_right le ulp.le)
    · calc (round p).value
        _ ≤ pow2 (exponentOf p + 1) := (round_bounds p positive).2
        _ ≤ pow2 (exponentOf q) := (pow2_le_iff _ _).mpr below
        _ ≤ (round q).value := (round_bounds q positiveQ).1

/-! Rounding is odd, so that the order is kept below zero too. -/

theorem floor_neg_of_lt (q : ℚ) (between : (⌊q⌋ : ℚ) < q) : ⌊-q⌋ = -⌊q⌋ - 1 := by
  have above := Int.lt_floor_add_one q
  rw [Int.floor_eq_iff]
  push_cast
  constructor
  · linarith
  · linarith

theorem roundEven_neg (q : ℚ) : roundEven (-q) = -roundEven q := by
  rcases lt_or_eq_of_le (Int.floor_le q) with between | whole
  · have floor := floor_neg_of_lt q between
    have rest : -q - (⌊-q⌋ : ℚ) = 1 - (q - (⌊q⌋ : ℚ)) := by
      rw [floor]
      push_cast
      ring
    unfold roundEven
    dsimp only
    rw [rest, floor]
    split_ifs <;> first | omega | linarith
  · rw [← whole, ← Int.cast_neg, roundEven_intCast, roundEven_intCast]

theorem round_neg (q : ℚ) : (round (-q)).value = -(round q).value := by
  by_cases zero : q = 0
  · rw [zero, neg_zero, round, if_pos rfl, neg_zero]
  · rw [round, if_neg (neg_ne_zero.mpr zero), round, if_neg zero, abs_neg]
    dsimp only
    rw [neg_div, roundEven_neg, Int.cast_neg, neg_mul]

theorem round_monotone (p q : ℚ) (le : p ≤ q) : (round p).value ≤ (round q).value := by
  rcases le_total 0 p with nonneg | below
  · exact round_mono p q nonneg le
  · rcases le_total 0 q with above | nonpos
    · exact (round_nonpos p below).trans (round_nonneg q above)
    · have mirrored := round_mono (-q) (-p) (neg_nonneg.mpr nonpos) (neg_le_neg le)
      rw [round_neg, round_neg] at mirrored
      exact neg_le_neg_iff.mp mirrored

theorem exponentOf_eq (q : ℚ) (exponent : Int) (low : pow2 exponent ≤ q)
    (high : q < pow2 (exponent + 1)) : exponentOf q = exponent := by
  have positive := (pow2_pos exponent).trans_le low
  have above : exponent < exponentOf q + 1 :=
    (pow2_lt_iff _ _).mp (low.trans_lt (lt_pow2_exponentOf q positive))
  have below : exponentOf q < exponent + 1 :=
    (pow2_lt_iff _ _).mp ((pow2_exponentOf_le q positive).trans_lt high)
  omega

/-- A whole number of units in the last place rounds to itself. -/
theorem round_of_whole (n : Int) (exponent : Int)
    (same : exponentOf (n * pow2 (exponent - 52)) = exponent) (positive : 0 < n) :
    (round (n * pow2 (exponent - 52))).value = n * pow2 (exponent - 52) := by
  have ulp := pow2_pos (exponent - 52)
  rw [round_of_pos _ (mul_pos (Int.cast_pos.mpr positive) ulp), same,
    mul_div_cancel_right₀ _ (ne_of_gt ulp), roundEven_intCast]

theorem round_round_of_pos (q : ℚ) (positive : 0 < q) :
    (round (round q).value).value = (round q).value := by
  have ulp := pow2_pos (exponentOf q - 52)
  rcases round_bounds q positive with ⟨low, high⟩
  rcases lt_or_eq_of_le high with below | top
  · have same := exponentOf_eq _ _ low below
    rw [round_of_pos q positive] at low same ⊢
    apply round_of_whole _ _ same
    have scaled := (pow2_pos (exponentOf q)).trans_le low
    exact_mod_cast (mul_pos_iff_of_pos_right ulp).mp scaled
  · have whole : pow2 (exponentOf q + 1) =
        ((4503599627370496 : Int) : ℚ) * pow2 (exponentOf q + 1 - 52) := by
      have shift : (52 : Int) + (exponentOf q + 1 - 52) = exponentOf q + 1 := by omega
      rw [← pow2_52, ← pow2_add, shift]
    rw [top, whole]
    apply round_of_whole _ _ _ (by norm_num)
    rw [← whole]
    exact exponentOf_eq _ _ le_rfl ((pow2_lt_iff _ _).mpr (by omega))

/-- What is rounded is a binary64 number. -/
theorem round_round (q : ℚ) : round (round q).value = round q := by
  rcases lt_trichotomy q 0 with negative | zero | positive
  · have mirrored := round_round_of_pos (-q) (neg_pos.mpr negative)
    rw [round_neg, round_neg] at mirrored
    exact congrArg Double.mk (neg_inj.mp mirrored)
  · rw [zero]
    rfl
  · exact congrArg Double.mk (round_round_of_pos q positive)

/-- A number that rounds to itself bounds what rounds from above it. -/
theorem le_round_of_le (x : Double) (q : ℚ) (representable : round x.value = x)
    (le : x.value ≤ q) : x.value ≤ (round q).value := by
  have rounded := round_monotone x.value q le
  rwa [representable] at rounded

theorem round_one : (round 1).value = 1 := by decide +kernel

theorem round_le_one (q : ℚ) (nonneg : 0 ≤ q) (le : q ≤ 1) : (round q).value ≤ 1 :=
  (round_mono q 1 nonneg le).trans_eq round_one

open FloatArith in
/-- `1 / (1 + e)` of a power that is not negative. -/
theorem logistic_within (power : Double) (nonneg : 0 ≤ power.value) :
    0 ≤ (div (ofNat 1) (add (ofNat 1) power) : Double).value ∧
      (div (ofNat 1) (add (ofNat 1) power) : Double).value ≤ 1 := by
  have one : (ofNat 1 : Double).value = 1 := round_one
  have least : 1 ≤ (add (ofNat 1) power : Double).value := by
    calc (1 : ℚ)
      _ = (round 1).value := round_one.symm
      _ ≤ _ := round_monotone _ _ (by rw [one]; linarith)
  have share : (ofNat 1 : Double).value / (add (ofNat 1) power : Double).value ≤ 1 := by
    rw [one]
    exact (div_le_one (zero_lt_one.trans_le least)).mpr least
  have positive : 0 ≤ (ofNat 1 : Double).value / (add (ofNat 1) power : Double).value := by
    rw [one]
    exact div_nonneg zero_le_one (zero_le_one.trans least)
  exact ⟨round_nonneg _ positive, round_le_one _ positive share⟩

/-- A natural number of at most 53 bits is a binary64 number. -/
theorem round_natCast (n : Nat) (small : n < 2 ^ 53) : (round (n : ℚ)).value = n := by
  rcases Nat.eq_zero_or_pos n with rfl | positive
  · rfl
  · have casted : (0 : ℚ) < n := Nat.cast_pos.mpr positive
    have high : exponentOf (n : ℚ) < 53 := by
      rw [← pow2_lt_iff]
      calc pow2 (exponentOf (n : ℚ))
        _ ≤ n := pow2_exponentOf_le _ casted
        _ < pow2 53 := by
            rw [pow2_eq_zpow]
            exact_mod_cast small
    obtain ⟨places, shift⟩ : ∃ places : Nat, exponentOf (n : ℚ) - 52 = -(places : Int) :=
      ⟨(52 - exponentOf (n : ℚ)).toNat, by omega⟩
    have scale : pow2 (-(places : Int)) = ((2 ^ places : Nat) : ℚ)⁻¹ := by
      rw [pow2_eq_zpow, zpow_neg, zpow_natCast]
      norm_cast
    rw [round_of_pos _ casted, shift, scale, div_inv_eq_mul, ← Nat.cast_mul,
      ← Int.cast_natCast (n * 2 ^ places), roundEven_intCast, Int.cast_natCast, Nat.cast_mul,
      mul_assoc, mul_inv_cancel₀ (by positivity), mul_one]

open FloatArith in
/-- A weighted mean of numbers between nought and a bound stays between them, if the weights
keep the bound itself. -/
theorem mean_within (alpha bound value average : Double) (first : 0 ≤ alpha.value)
    (second : 0 ≤ (sub (ofNat 1) alpha : Double).value)
    (whole : (add (mul alpha bound) (mul (sub (ofNat 1) alpha) bound) : Double).value ≤
      bound.value)
    (low : 0 ≤ value.value) (high : value.value ≤ bound.value)
    (lowAverage : 0 ≤ average.value) (highAverage : average.value ≤ bound.value) :
    0 ≤ (add (mul alpha value) (mul (sub (ofNat 1) alpha) average) : Double).value ∧
      (add (mul alpha value) (mul (sub (ofNat 1) alpha) average) : Double).value ≤
        bound.value := by
  have left : 0 ≤ alpha.value * value.value := mul_nonneg first low
  have right : 0 ≤ (sub (ofNat 1) alpha : Double).value * average.value :=
    mul_nonneg second lowAverage
  constructor
  · exact round_nonneg _ (add_nonneg (round_nonneg _ left) (round_nonneg _ right))
  · calc (add (mul alpha value) (mul (sub (ofNat 1) alpha) average) : Double).value
      _ ≤ (add (mul alpha bound) (mul (sub (ofNat 1) alpha) bound) : Double).value := by
          apply round_mono
          · exact add_nonneg (round_nonneg _ left) (round_nonneg _ right)
          · apply add_le_add
            · exact round_mono _ _ left (mul_le_mul_of_nonneg_left high first)
            · exact round_mono _ _ right (mul_le_mul_of_nonneg_left highAverage second)
      _ ≤ bound.value := whole

end Helios.Double
