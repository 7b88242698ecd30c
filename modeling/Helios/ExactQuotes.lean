import Helios.Checked
import Helios.ConstantProduct
import Helios.RouteExecution
import Helios.ShredReserves

/-! Three copies of the constant-product quote against the exact quotient: the pool's own,
whose operators wrap, and the CPMM and FluxBeam adapters', whose operators are checked. -/

namespace Helios.ExactQuotes

open Machine ConstantProduct

/-- `quote_cpmm`. -/
def quoteCpmm (reserveIn reserveOut amountIn feeBps : Nat) : Nat :=
  if reserveIn = 0 ∨ reserveOut = 0 ∨ amountIn = 0 ∨ 10000 ≤ feeBps then 0
  else
    let feeNumerator := 10000 - feeBps
    let amountInWithFee := (checkedMul 128 amountIn feeNumerator).getD 0
    let numerator := (checkedMul 128 amountInWithFee reserveOut).getD 0
    let denominator :=
      (checkedAdd 128 ((checkedMul 128 reserveIn 10000).getD 0) amountInWithFee).getD 0
    if denominator = 0 then 0 else wrap 64 (numerator / denominator)

/-- `quote_fluxbeam`, the same text. -/
def quoteFluxbeam (reserveIn reserveOut amountIn feeBps : Nat) : Nat :=
  if reserveIn = 0 ∨ reserveOut = 0 ∨ amountIn = 0 ∨ 10000 ≤ feeBps then 0
  else
    let feeNumerator := 10000 - feeBps
    let amountInWithFee := (checkedMul 128 amountIn feeNumerator).getD 0
    let numerator := (checkedMul 128 amountInWithFee reserveOut).getD 0
    let denominator :=
      (checkedAdd 128 ((checkedMul 128 reserveIn 10000).getD 0) amountInWithFee).getD 0
    if denominator = 0 then 0 else wrap 64 (numerator / denominator)

theorem quoteFluxbeam_eq : quoteFluxbeam = quoteCpmm := rfl

/-- The quotient over unbounded integers. -/
def exactOutput (reserveIn reserveOut feeBps amountIn : Nat) : Nat :=
  output (reserveIn * 10000) reserveOut (amountIn * (10000 - feeBps))

section Formula

variable (reserveIn reserveOut feeBps amountIn : Nat)

theorem exactOutput_lt (filled : 0 < reserveIn) (stocked : 0 < reserveOut) :
    exactOutput reserveIn reserveOut feeBps amountIn < reserveOut :=
  output_lt _ _ _ (by omega) stocked

/-- A numerator past 2^128 loses more than one whole denominator. -/
theorem exactOutput_gt_wrapped (inSmall : reserveIn < 2 ^ 64) (small : amountIn < 2 ^ 64)
    (filled : 0 < reserveIn) (exceeds : 2 ^ 128 ≤ amountIn * (10000 - feeBps) * reserveOut) :
    wrap 128 (amountIn * (10000 - feeBps) * reserveOut) /
        (reserveIn * 10000 + amountIn * (10000 - feeBps)) <
      exactOutput reserveIn reserveOut feeBps amountIn := by
  have paid : amountIn * (10000 - feeBps) ≤ amountIn * 10000 :=
    Nat.mul_le_mul_left amountIn (Nat.sub_le 10000 feeBps)
  rw [exactOutput, output]
  generalize amountIn * (10000 - feeBps) = counted at paid exceeds ⊢
  have positive : 0 < reserveIn * 10000 + counted := by omega
  have room : wrap 128 (counted * reserveOut) + (reserveIn * 10000 + counted) ≤
      counted * reserveOut := by
    rw [wrap]
    omega
  calc wrap 128 (counted * reserveOut) / (reserveIn * 10000 + counted)
      < wrap 128 (counted * reserveOut) / (reserveIn * 10000 + counted) + 1 := Nat.lt_succ_self _
    _ = (wrap 128 (counted * reserveOut) + (reserveIn * 10000 + counted)) /
          (reserveIn * 10000 + counted) := (Nat.add_div_right _ positive).symm
    _ ≤ counted * reserveOut / (reserveIn * 10000 + counted) := Nat.div_le_div_right room

/-- Wraps only lower the pool's own formula. -/
theorem xyKQuote_le_exactOutput (fee : feeBps ≤ 10000) (inSmall : reserveIn < 2 ^ 64)
    (small : amountIn < 2 ^ 64) :
    DexPool.xyKQuote reserveIn reserveOut feeBps amountIn ≤
      exactOutput reserveIn reserveOut feeBps amountIn := by
  have paid : amountIn * (10000 - feeBps) ≤ amountIn * 10000 :=
    Nat.mul_le_mul_left amountIn (Nat.sub_le 10000 feeBps)
  rw [DexPool.xyKQuote, wrappingSub_of_le 128 10000 feeBps fee (by norm_num),
    wrap_of_lt 128 (amountIn * (10000 - feeBps)) (by omega),
    wrap_of_lt 128 (reserveIn * 10000 + amountIn * (10000 - feeBps)) (by omega)]
  exact le_trans (Nat.mod_le _ _) (Nat.div_le_div_right (Nat.mod_le _ _))

/-- The fee only lowers an output. -/
theorem exactOutput_le_output :
    exactOutput reserveIn reserveOut feeBps amountIn ≤ output reserveIn reserveOut amountIn := by
  calc exactOutput reserveIn reserveOut feeBps amountIn
      ≤ output (reserveIn * 10000) reserveOut (amountIn * 10000) :=
        output_mono _ _ _ _ (Nat.mul_le_mul_left amountIn (Nat.sub_le 10000 feeBps))
    _ = output reserveIn reserveOut amountIn := output_scale _ _ _ _ (by norm_num)

/-- The pool's own formula is exact as long as its numerator fits. -/
theorem xyKQuote_exact_iff (fee : feeBps ≤ 10000) (inSmall : reserveIn < 2 ^ 64)
    (outSmall : reserveOut < 2 ^ 64) (small : amountIn < 2 ^ 64) (filled : 0 < reserveIn)
    (stocked : 0 < reserveOut) :
    DexPool.xyKQuote reserveIn reserveOut feeBps amountIn =
        exactOutput reserveIn reserveOut feeBps amountIn ↔
      amountIn * (10000 - feeBps) * reserveOut < 2 ^ 128 := by
  constructor
  · intro same
    by_contra exceeds
    have less := exactOutput_gt_wrapped reserveIn reserveOut feeBps amountIn inSmall small filled
      (not_lt.mp exceeds)
    have below := exactOutput_lt reserveIn reserveOut feeBps amountIn filled stocked
    have paid : amountIn * (10000 - feeBps) ≤ amountIn * 10000 :=
      Nat.mul_le_mul_left amountIn (Nat.sub_le 10000 feeBps)
    rw [DexPool.xyKQuote, wrappingSub_of_le 128 10000 feeBps fee (by norm_num),
      wrap_of_lt 128 (amountIn * (10000 - feeBps)) (by omega),
      wrap_of_lt 128 (reserveIn * 10000 + amountIn * (10000 - feeBps)) (by omega),
      wrap_of_lt 64 _ (less.trans (below.trans outSmall))] at same
    omega
  · intro fits
    exact DexPool.xyKQuote_of_fits reserveIn reserveOut feeBps amountIn fee inSmall outSmall small
      fits

/-- The checked copies are exact as long as their numerator fits, and 0 beyond. -/
theorem quoteCpmm_eq (fee : feeBps ≤ 10000) (inSmall : reserveIn < 2 ^ 64)
    (outSmall : reserveOut < 2 ^ 64) (small : amountIn < 2 ^ 64) (filled : 0 < reserveIn)
    (stocked : 0 < reserveOut) :
    quoteCpmm reserveIn reserveOut amountIn feeBps =
      if amountIn * (10000 - feeBps) * reserveOut < 2 ^ 128 then
        exactOutput reserveIn reserveOut feeBps amountIn
      else 0 := by
  by_cases idle : amountIn * (10000 - feeBps) = 0
  · have guarded : amountIn = 0 ∨ 10000 ≤ feeBps := by
      rcases Nat.mul_eq_zero.mp idle with none | all
      · exact Or.inl none
      · exact Or.inr (by omega)
    rw [quoteCpmm, if_pos (Or.inr (Or.inr guarded)), exactOutput, idle]
    simp [output]
  have paid : amountIn * (10000 - feeBps) ≤ amountIn * 10000 :=
    Nat.mul_le_mul_left amountIn (Nat.sub_le 10000 feeBps)
  have live : ¬ (reserveIn = 0 ∨ reserveOut = 0 ∨ amountIn = 0 ∨ 10000 ≤ feeBps) := by
    rintro (empty | empty | none | all)
    · omega
    · omega
    · exact idle (by rw [none, Nat.zero_mul])
    · exact idle (by rw [Nat.sub_eq_zero_of_le all, Nat.mul_zero])
  have below := exactOutput_lt reserveIn reserveOut feeBps amountIn filled stocked
  have counted := checkedMul_of_lt 128 amountIn (10000 - feeBps) (by omega)
  have scaled := checkedMul_of_lt 128 reserveIn 10000 (by omega)
  have divisor := checkedAdd_of_lt 128 (reserveIn * 10000) (amountIn * (10000 - feeBps)) (by omega)
  have positive : reserveIn * 10000 + amountIn * (10000 - feeBps) ≠ 0 := by omega
  rw [quoteCpmm, if_neg live]
  simp only [counted, scaled, divisor, Option.getD_some, if_neg positive]
  split
  · next fits =>
      rw [checkedMul_of_lt 128 _ _ fits, Option.getD_some]
      exact wrap_of_lt 64 _ (below.trans outSmall)
  · next exceeds =>
      rw [checkedMul_of_le 128 _ _ (not_lt.mp exceeds)]
      simp [wrap]

end Formula

section Pools

variable {F : Type} [FloatArith F] (powf : F → F → F)

/-- Both quotes of a pool are the exact quotient, below the reserve paid out, and what the
two adapters quote on the same reserves and fee. -/
structure QuotesExactly (pool : DexPool) (now : Instant) (amountIn : Nat) : Prop where
  aToB : pool.quoteAToB powf now amountIn =
    exactOutput (pool.effectiveReserves now).1 (pool.effectiveReserves now).2 pool.feeBps amountIn
  bToA : pool.quoteBToA powf now amountIn =
    exactOutput (pool.effectiveReserves now).2 (pool.effectiveReserves now).1 pool.feeBps amountIn
  belowB : pool.quoteAToB powf now amountIn < (pool.effectiveReserves now).2
  belowA : pool.quoteBToA powf now amountIn < (pool.effectiveReserves now).1
  cpmm : quoteCpmm (pool.effectiveReserves now).1 (pool.effectiveReserves now).2 amountIn
      pool.feeBps = pool.quoteAToB powf now amountIn ∧
    quoteCpmm (pool.effectiveReserves now).2 (pool.effectiveReserves now).1 amountIn
      pool.feeBps = pool.quoteBToA powf now amountIn
  fluxbeam : quoteFluxbeam (pool.effectiveReserves now).1 (pool.effectiveReserves now).2 amountIn
      pool.feeBps = pool.quoteAToB powf now amountIn ∧
    quoteFluxbeam (pool.effectiveReserves now).2 (pool.effectiveReserves now).1 amountIn
      pool.feeBps = pool.quoteBToA powf now amountIn

/-- Without concentrated liquidity the quotes are the formula on the effective reserves. -/
theorem quotes_of_filled (pool : DexPool) (now : Instant) (amountIn : Nat) (plain : pool.IsXyK)
    (filledA : 0 < (pool.effectiveReserves now).1) (filledB : 0 < (pool.effectiveReserves now).2) :
    pool.quoteAToB powf now amountIn = DexPool.xyKQuote (pool.effectiveReserves now).1
        (pool.effectiveReserves now).2 pool.feeBps amountIn ∧
      pool.quoteBToA powf now amountIn = DexPool.xyKQuote (pool.effectiveReserves now).2
        (pool.effectiveReserves now).1 pool.feeBps amountIn := by
  have live : ¬ ((pool.effectiveReserves now).1 = 0 ∨ (pool.effectiveReserves now).2 = 0) := by
    omega
  rw [DexPool.quoteAToB, DexPool.quoteBToA, RouteExecution.quote_of_isXyK powf _ _ _ _ plain,
    RouteExecution.quote_of_isXyK powf _ _ _ _ plain, RouteExecution.xyQuote,
    RouteExecution.xyQuote]
  exact ⟨if_neg live, if_neg live⟩

/-- The quotes are exact and agree exactly if both numerators fit 128 bits. -/
theorem quotesExactly_iff (pool : DexPool) (now : Instant) (amountIn : Nat) (plain : pool.IsXyK)
    (filledA : 0 < (pool.effectiveReserves now).1) (filledB : 0 < (pool.effectiveReserves now).2)
    (smallA : (pool.effectiveReserves now).1 < 2 ^ 64)
    (smallB : (pool.effectiveReserves now).2 < 2 ^ 64) (small : amountIn < 2 ^ 64)
    (fee : pool.feeBps ≤ 10000) :
    QuotesExactly powf pool now amountIn ↔
      amountIn * (10000 - pool.feeBps) * (pool.effectiveReserves now).2 < 2 ^ 128 ∧
        amountIn * (10000 - pool.feeBps) * (pool.effectiveReserves now).1 < 2 ^ 128 := by
  rcases quotes_of_filled powf pool now amountIn plain filledA filledB with ⟨forth, back⟩
  have exactForth := xyKQuote_exact_iff _ _ pool.feeBps amountIn fee smallA smallB small filledA
    filledB
  have exactBack := xyKQuote_exact_iff _ _ pool.feeBps amountIn fee smallB smallA small filledB
    filledA
  constructor
  · intro exact
    exact ⟨exactForth.mp (forth.symm.trans exact.aToB), exactBack.mp (back.symm.trans exact.bToA)⟩
  · rintro ⟨fitsB, fitsA⟩
    have sameForth := forth.trans (exactForth.mpr fitsB)
    have sameBack := back.trans (exactBack.mpr fitsA)
    have checkedForth := quoteCpmm_eq _ _ pool.feeBps amountIn fee smallA smallB small filledA
      filledB
    have checkedBack := quoteCpmm_eq _ _ pool.feeBps amountIn fee smallB smallA small filledB
      filledA
    rw [if_pos fitsB, ← sameForth] at checkedForth
    rw [if_pos fitsA, ← sameBack] at checkedBack
    exact {
      aToB := sameForth
      bToA := sameBack
      belowB := sameForth ▸ exactOutput_lt _ _ _ _ filledA filledB
      belowA := sameBack ▸ exactOutput_lt _ _ _ _ filledB filledA
      cpmm := ⟨checkedForth, checkedBack⟩
      fluxbeam := ⟨checkedForth, checkedBack⟩ }

end Pools

/-- Two reserves of 10^16, as tokens of nine decimals have. -/
def deepPool : DexPool :=
  { ShredReserves.polledPool with reserveA := 10 ^ 16, reserveB := 10 ^ 16, feeBps := 25 }

theorem deepPool_reserves : deepPool.effectiveReserves 0 = (10 ^ 16, 10 ^ 16) := rfl

theorem deepPool_exact : QuotesExactly (fun base _ => base : ℚ → ℚ → ℚ) deepPool 0 (10 ^ 12) :=
  (quotesExactly_iff (fun base _ => base) deepPool 0 (10 ^ 12) ⟨rfl, rfl⟩
    (by rw [deepPool_reserves]; norm_num) (by rw [deepPool_reserves]; norm_num)
    (by rw [deepPool_reserves]; norm_num) (by rw [deepPool_reserves]; norm_num) (by norm_num)
    (by decide)).mpr (by rw [deepPool_reserves]; constructor <;> norm_num [deepPool])

/-- For 10^19 paid in, the true output is 9.989.. * 10^15; the numerator wraps. -/
theorem wrapped_numerator :
    deepPool.IsXyK ∧ deepPool.feeBps ≤ 10000 ∧
      deepPool.effectiveReserves 0 = (10 ^ 16, 10 ^ 16) ∧ (10 : Nat) ^ 19 < 2 ^ 64 ∧
      ¬ QuotesExactly (fun base _ => base : ℚ → ℚ → ℚ) deepPool 0 (10 ^ 19) := by
  refine ⟨⟨rfl, rfl⟩, by decide, deepPool_reserves, by norm_num, ?_⟩
  intro exact
  have exceeds := xyKQuote_exact_iff (10 ^ 16) (10 ^ 16) 25 (10 ^ 19) (by norm_num) (by norm_num)
    (by norm_num) (by norm_num) (by norm_num) (by norm_num)
  have quoted : DexPool.xyKQuote (10 ^ 16) (10 ^ 16) 25 (10 ^ 19) =
      exactOutput (10 ^ 16) (10 ^ 16) 25 (10 ^ 19) := exact.aToB
  have fits := exceeds.mp quoted
  norm_num at fits

end Helios.ExactQuotes
