import Helios.DiscountedRoute

/-! The cross-DEX builder that borrows the other token of the pair. The plain builder asks for a
reserve of ten loans before it quotes; the cap on the price impact asks for twenty. -/

namespace Helios.MirroredRoute

open Machine CrossDex FloatArith

/-- An impact under the cap leaves a reserve of ten times the amount. -/
def CapCoversReserve (F : Type) [FloatArith F] : Prop :=
  ∀ (pool : DexPool) (aToB : Bool) (amount : Nat),
    lt maxImpactPct (priceImpact pool aToB amount : F) = false → amount * 10 ≤ reserveIn pool aToB

theorem le_of_twenty (amount reserve : Nat) (deep : amount * 20 ≤ max reserve 1) :
    amount * 10 ≤ reserve := by
  rcases Nat.eq_zero_or_pos amount with none | some
  · rw [none, Nat.zero_mul]
    exact Nat.zero_le _
  · omega

theorem capCovers_rat : CapCoversReserve ℚ := by
  intro pool aToB amount checked
  have capped : (amount : ℚ) / (max (reserveIn pool aToB) 1 : Nat) * 100 ≤ 5 :=
    not_lt.mp (of_decide_eq_false checked)
  have positive : (0 : ℚ) < (max (reserveIn pool aToB) 1 : Nat) :=
    Nat.cast_pos.mpr (by omega)
  have ratio : (amount : ℚ) / (max (reserveIn pool aToB) 1 : Nat) ≤ 1 / 20 := by linarith
  rw [div_le_iff₀ positive] at ratio
  have deep : (amount * 20 : ℚ) ≤ (max (reserveIn pool aToB) 1 : Nat) := by linarith
  exact le_of_twenty amount (reserveIn pool aToB) (by exact_mod_cast deep)

/-- Rounding to binary64 costs far less than the factor of two between the checks. -/
theorem capCovers_double : CapCoversReserve Double := by
  intro pool aToB amount checked
  have bound := RouteExecution.impact_bound amount (max (reserveIn pool aToB) 1) (by omega) checked
  generalize held : max (reserveIn pool aToB) 1 = reserve at bound
  have nonneg : (0 : ℚ) ≤ reserve := Nat.cast_nonneg _
  have deep : (amount * 19 : ℚ) ≤ reserve := by
    norm_num at bound
    linarith
  have deep : amount * 19 ≤ reserve := by exact_mod_cast deep
  rcases Nat.eq_zero_or_pos amount with none | some
  · rw [none, Nat.zero_mul]
    exact Nat.zero_le _
  · omega

section Builders

variable {F : Type} [FloatArith F] (powf : F → F → F) (now : Instant)

/-- Where the reserve check rejects, the impact of the first hop does. -/
theorem twoHopRoute_of_shallow (covers : CapCoversReserve F) (first : DexPool) (firstAToB : Bool)
    (second : DexPool) (secondAToB : Bool) (tokenIn tokenMid : Pubkey) (borrowAmount : Nat)
    (shallow : reserveIn first firstAToB < saturatingMul64 borrowAmount 10) :
    twoHopRoute powf now first firstAToB second secondAToB tokenIn tokenMid borrowAmount =
      none := by
  have exceeds : lt maxImpactPct (priceImpact first firstAToB borrowAmount : F) = true := by
    by_contra within
    have deep := covers first firstAToB borrowAmount (Bool.eq_false_iff.mpr within)
    rw [saturatingMul64] at shallow
    omega
  rw [twoHopRoute]
  exact if_pos (Or.inr exceeds)

theorem reverse_eq_of_covers (covers : CapCoversReserve F) (buyPool : DexPool)
    (buyCanonical : Bool) (sellPool : DexPool) (sellCanonical : Bool) (tokenA tokenB : Pubkey)
    (borrowAmount divergenceBps : Nat) :
    buildCrossDexRouteReverse powf now buyPool buyCanonical sellPool sellCanonical tokenA tokenB
        borrowAmount divergenceBps =
      buildCrossDexRoute powf now buyPool (!buyCanonical) sellPool (!sellCanonical) tokenB tokenA
        borrowAmount divergenceBps := by
  rw [buildCrossDexRouteReverse, buildCrossDexRoute, Bool.not_not]
  split
  · next shallow =>
      exact twoHopRoute_of_shallow powf now covers buyPool (!buyCanonical) sellPool sellCanonical
        tokenB tokenA borrowAmount shallow
  · rfl

end Builders

/-- The mirrored builder is the plain one, over exact rationals and over binary64. -/
theorem reverse_mirrors :
    (∀ (powf : ℚ → ℚ → ℚ) now buyPool buyCanonical sellPool sellCanonical tokenA tokenB
        borrowAmount divergenceBps,
      buildCrossDexRouteReverse powf now buyPool buyCanonical sellPool sellCanonical tokenA tokenB
          borrowAmount divergenceBps =
        buildCrossDexRoute powf now buyPool (!buyCanonical) sellPool (!sellCanonical) tokenB tokenA
          borrowAmount divergenceBps) ∧
    ∀ (powf : Double → Double → Double) now buyPool buyCanonical sellPool sellCanonical tokenA
        tokenB borrowAmount divergenceBps,
      buildCrossDexRouteReverse powf now buyPool buyCanonical sellPool sellCanonical tokenA tokenB
          borrowAmount divergenceBps =
        buildCrossDexRoute powf now buyPool (!buyCanonical) sellPool (!sellCanonical) tokenB tokenA
          borrowAmount divergenceBps := by
  constructor
  · intro powf now
    exact reverse_eq_of_covers powf now capCovers_rat
  · intro powf now
    exact reverse_eq_of_covers powf now capCovers_double

end Helios.MirroredRoute
