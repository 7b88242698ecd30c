import Helios.WhaleSwaps
import Helios.Meteora

/-! The quote the whale-backrun simulator makes on simulated reserves against the pool's own:
the simulator floors the fee before it subtracts it, the pool folds it into the fraction. -/

namespace Helios.BackrunQuote

open Machine ConstantProduct ExactQuotes Meteora

/-- `BORROW_AMOUNTS`. -/
def borrowAmounts : List Nat := [100000000, 500000000, 1000000000]

/-- `MIN_PROFIT_LAMPORTS`. -/
def minProfitLamports : Nat := 5000

/-- `xy_k_quote`. -/
def xyKQuote (ra rb amountIn : Nat) (aToB : Bool) (feeBps : Nat) : Nat :=
  if ra = 0 ∨ rb = 0 ∨ amountIn = 0 then 0
  else
    let fee := wrap 128 (amountIn * feeBps) / 10000
    let netIn := wrappingSub 128 amountIn fee
    if aToB then
      let num := saturatingMul128 rb netIn
      let den := saturatingAdd128 ra netIn
      if den = 0 then 0 else wrap 64 (num / den)
    else
      let num := saturatingMul128 ra netIn
      let den := saturatingAdd128 rb netIn
      if den = 0 then 0 else wrap 64 (num / den)

/-- The profit check on the second hop's output. -/
def JudgedProfitable (finalAmount borrow : Nat) : Prop :=
  ¬ wrapI64 (wrapI64 finalAmount - wrapI64 borrow) < minProfitLamports

/-! The dividend and the divisor of the pool's own quote, with the wraps of its operators. -/

def counted (feeBps amountIn : Nat) : Nat := wrap 128 (amountIn * wrappingSub 128 10000 feeBps)

def dividend (reserveOut feeBps amountIn : Nat) : Nat :=
  wrap 128 (counted feeBps amountIn * reserveOut)

def divisor (reserveIn feeBps amountIn : Nat) : Nat :=
  wrap 128 (reserveIn * 10000 + counted feeBps amountIn)

/-- What flooring the fee leaves uncharged, in parts of 10000. -/
def uncharged (feeBps amountIn : Nat) : Nat := amountIn * feeBps % 10000

/-- By how much a fee above 10000 exceeds the amount, where the subtraction wraps. -/
def excess (feeBps amountIn : Nat) : Nat := amountIn * (feeBps - 10000) / 10000

/-- The pool's numerator fits 128 bits, and what flooring the fee leaves uncharged does not pay
for one more unit. -/
def RoundingIdle (reserveIn reserveOut feeBps amountIn : Nat) : Prop :=
  amountIn * (10000 - feeBps) * reserveOut < 2 ^ 128 ∧
    ∀ units < reserveOut,
      units * (reserveIn * 10000) ≤
        (amountIn * (10000 - feeBps) + uncharged feeBps amountIn) * (reserveOut - units) →
      units * (reserveIn * 10000) ≤ amountIn * (10000 - feeBps) * (reserveOut - units)

/-- With a fee above the whole amount the simulator says 0 or 1, and the pool's divisor and
dividend have wrapped. -/
def WrapsCovered (reserveIn reserveOut feeBps amountIn : Nat) : Prop :=
  divisor reserveIn feeBps amountIn ≠ 0 ∧
    (excess feeBps amountIn = 0 ∨ (reserveOut = 1 ∧ 2 ≤ excess feeBps amountIn) ∨
      divisor reserveIn feeBps amountIn ≤
        dividend reserveOut feeBps amountIn % (divisor reserveIn feeBps amountIn * 2 ^ 64))

def Bounded (reserveIn reserveOut feeBps amountIn : Nat) : Prop :=
  reserveIn = 0 ∨ reserveOut = 0 ∨ amountIn = 0 ∨
    if feeBps ≤ 10000 then RoundingIdle reserveIn reserveOut feeBps amountIn
    else WrapsCovered reserveIn reserveOut feeBps amountIn

section Formula

variable (reserveIn reserveOut feeBps amountIn : Nat)

/-- The two directions are one formula. -/
theorem xyKQuote_false (ra rb : Nat) :
    xyKQuote ra rb amountIn false feeBps = xyKQuote rb ra amountIn true feeBps := by
  have order : (ra = 0 ∨ rb = 0 ∨ amountIn = 0) ↔ (rb = 0 ∨ ra = 0 ∨ amountIn = 0) := by omega
  rw [xyKQuote, xyKQuote]
  simp only [order, if_true, Bool.false_eq_true, if_false]

/-- The net amount in parts of 10000 is what the pool counts and the part not charged. -/
theorem netIn_eq (fee : feeBps ≤ 10000) :
    (amountIn - amountIn * feeBps / 10000) * 10000 =
      amountIn * (10000 - feeBps) + uncharged feeBps amountIn := by
  have less : amountIn * feeBps ≤ amountIn * 10000 := Nat.mul_le_mul_left amountIn fee
  rw [Nat.sub_mul, Nat.mul_sub, uncharged]
  omega

theorem xyKQuote_of_le (fee : feeBps ≤ 10000) (inSmall : reserveIn < 2 ^ 64)
    (outSmall : reserveOut < 2 ^ 64) (small : amountIn < 2 ^ 64) (filled : 0 < reserveIn)
    (stocked : 0 < reserveOut) (paid : 0 < amountIn) :
    xyKQuote reserveIn reserveOut amountIn true feeBps =
      output (reserveIn * 10000) reserveOut
        (amountIn * (10000 - feeBps) + uncharged feeBps amountIn) := by
  have live : ¬ (reserveIn = 0 ∨ reserveOut = 0 ∨ amountIn = 0) := by omega
  have less : amountIn * feeBps ≤ amountIn * 10000 := Nat.mul_le_mul_left amountIn fee
  have floored : amountIn * feeBps / 10000 ≤ amountIn := by omega
  have netSmall : amountIn - amountIn * feeBps / 10000 ≤ 2 ^ 64 - 1 := by omega
  rw [← netIn_eq feeBps amountIn fee, output_scale _ _ _ _ (by norm_num), xyKQuote, if_neg live]
  dsimp only
  rw [if_pos rfl, wrap_of_lt 128 (amountIn * feeBps) (by omega),
    wrappingSub_of_le 128 amountIn _ floored (by omega)]
  generalize amountIn - amountIn * feeBps / 10000 = netIn at netSmall ⊢
  have product : reserveOut * netIn ≤ u128Max := by
    calc reserveOut * netIn ≤ (2 ^ 64 - 1) * (2 ^ 64 - 1) :=
          Nat.mul_le_mul (by omega) netSmall
      _ ≤ u128Max := by norm_num [u128Max]
  have sum : reserveIn + netIn ≤ u128Max := by
    rw [u128Max]
    omega
  rw [saturatingMul128, saturatingAdd128, min_eq_left product, min_eq_left sum,
    if_neg (by omega), Nat.mul_comm reserveOut netIn]
  exact wrap_of_lt 64 _ (lt_trans (output_lt reserveIn reserveOut netIn filled stocked) outSmall)

/-- Up to a fee of the whole amount. -/
theorem le_quote_iff_of_le (fee : feeBps ≤ 10000) (inSmall : reserveIn < 2 ^ 64)
    (outSmall : reserveOut < 2 ^ 64) (small : amountIn < 2 ^ 64) (filled : 0 < reserveIn)
    (stocked : 0 < reserveOut) (paid : 0 < amountIn) :
    xyKQuote reserveIn reserveOut amountIn true feeBps ≤
        DexPool.xyKQuote reserveIn reserveOut feeBps amountIn ↔
      RoundingIdle reserveIn reserveOut feeBps amountIn := by
  have scaled : 0 < reserveIn * 10000 := by omega
  rw [xyKQuote_of_le reserveIn reserveOut feeBps amountIn fee inSmall outSmall small filled
    stocked paid, RoundingIdle]
  have more := output_mono (reserveIn * 10000) reserveOut (amountIn * (10000 - feeBps))
    (amountIn * (10000 - feeBps) + uncharged feeBps amountIn) (Nat.le_add_right _ _)
  have below := output_lt (reserveIn * 10000) reserveOut
    (amountIn * (10000 - feeBps) + uncharged feeBps amountIn) scaled stocked
  rcases Nat.lt_or_ge (amountIn * (10000 - feeBps) * reserveOut) (2 ^ 128) with fits | exceeds
  · rw [(xyKQuote_exact_iff reserveIn reserveOut feeBps amountIn fee inSmall outSmall small filled
      stocked).mpr fits, exactOutput]
    constructor
    · intro bounded
      refine ⟨fits, ?_⟩
      intro units within afforded
      have bought := (le_output_iff _ _ _ _ scaled within.le).mpr afforded
      exact (le_output_iff _ _ _ _ scaled within.le).mp (bought.trans bounded)
    · rintro ⟨-, idle⟩
      have afforded := (le_output_iff _ _ _ _ scaled below.le).mp le_rfl
      exact (le_output_iff _ _ _ _ scaled below.le).mpr (idle _ below afforded)
  · -- the pool's numerator wraps, and its quote falls below the exact one
    have less := exactOutput_gt_wrapped reserveIn reserveOut feeBps amountIn inSmall small filled
      exceeds
    have counts : amountIn * (10000 - feeBps) ≤ amountIn * 10000 :=
      Nat.mul_le_mul_left amountIn (Nat.sub_le 10000 feeBps)
    have wrapped : DexPool.xyKQuote reserveIn reserveOut feeBps amountIn ≤
        wrap 128 (amountIn * (10000 - feeBps) * reserveOut) /
          (reserveIn * 10000 + amountIn * (10000 - feeBps)) := by
      rw [DexPool.xyKQuote, wrappingSub_of_le 128 10000 feeBps fee (by norm_num),
        wrap_of_lt 128 (amountIn * (10000 - feeBps)) (by omega),
        wrap_of_lt 128 (reserveIn * 10000 + amountIn * (10000 - feeBps)) (by omega)]
      exact Nat.mod_le _ _
    rw [exactOutput] at less
    constructor
    · intro bounded
      omega
    · rintro ⟨fits, -⟩
      omega

/-- Past a fee of the whole amount the simulator's net amount is nothing or wraps. -/
theorem netIn_of_gt (fee : 10000 < feeBps) (feeSmall : feeBps < 2 ^ 64)
    (small : amountIn < 2 ^ 64) :
    wrappingSub 128 amountIn (wrap 128 (amountIn * feeBps) / 10000) =
      if excess feeBps amountIn = 0 then 0 else 2 ^ 128 - excess feeBps amountIn := by
  have split : amountIn * feeBps = amountIn * 10000 + amountIn * (feeBps - 10000) := by
    rw [← Nat.mul_add, Nat.add_sub_cancel' fee.le]
  have bound : amountIn * feeBps ≤ (2 ^ 64 - 1) * (2 ^ 64 - 1) :=
    Nat.mul_le_mul (by omega) (by omega)
  have floored : amountIn * feeBps / 10000 = amountIn + excess feeBps amountIn := by
    rw [split, excess]
    omega
  rw [wrap_of_lt 128 _ (by omega), wrappingSub, floored]
  have few : amountIn + excess feeBps amountIn < 2 ^ 128 := by omega
  rw [Nat.mod_eq_of_lt few]
  split
  · omega
  · next exceeds =>
      rw [Nat.mod_eq_of_lt (by omega)]
      omega

theorem xyKQuote_of_gt (fee : 10000 < feeBps) (feeSmall : feeBps < 2 ^ 64)
    (inSmall : reserveIn < 2 ^ 64) (outSmall : reserveOut < 2 ^ 64) (small : amountIn < 2 ^ 64)
    (filled : 0 < reserveIn) (stocked : 0 < reserveOut) (paid : 0 < amountIn) :
    xyKQuote reserveIn reserveOut amountIn true feeBps =
      if excess feeBps amountIn = 0 ∨ (reserveOut = 1 ∧ 2 ≤ excess feeBps amountIn) then 0
      else 1 := by
  have live : ¬ (reserveIn = 0 ∨ reserveOut = 0 ∨ amountIn = 0) := by omega
  have bound : amountIn * (feeBps - 10000) ≤ (2 ^ 64 - 1) * (2 ^ 64 - 1) :=
    Nat.mul_le_mul (by omega) (by omega)
  have few : excess feeBps amountIn ≤ 2 ^ 127 := by
    rw [excess]
    omega
  rw [xyKQuote, if_neg live]
  dsimp only
  rw [if_pos rfl, netIn_of_gt feeBps amountIn fee feeSmall small]
  generalize excess feeBps amountIn = past at few ⊢
  rcases Nat.eq_zero_or_pos past with none | exceeds
  · rw [if_pos none, if_pos (Or.inl none), saturatingMul128, Nat.mul_zero, Nat.zero_min,
      Nat.zero_div]
    split
    · rfl
    · rfl
  rw [if_neg (Nat.ne_of_gt exceeds), saturatingMul128, saturatingAdd128, u128Max]
  have held : min (reserveIn + (2 ^ 128 - past)) (2 ^ 128 - 1) ≠ 0 := by omega
  rw [if_neg held]
  split
  · next idle =>
      rcases idle with none | ⟨last, two⟩
      · omega
      · rw [last, Nat.one_mul, Nat.div_eq_of_lt (by omega)]
        rfl
  · next busy =>
      have full : 2 ^ 128 - 1 ≤ reserveOut * (2 ^ 128 - past) := by
        rcases Nat.lt_or_ge 1 reserveOut with many | one
        · calc 2 ^ 128 - 1 ≤ 2 * (2 ^ 128 - past) := by omega
            _ ≤ reserveOut * (2 ^ 128 - past) := Nat.mul_le_mul_right _ many
        · have single : reserveOut = 1 := by omega
          rw [single, Nat.one_mul]
          omega
      have once : (2 ^ 128 - 1) / min (reserveIn + (2 ^ 128 - past)) (2 ^ 128 - 1) = 1 := by
        apply Nat.div_eq_of_lt_le
        · omega
        · omega
      rw [min_eq_right full, once]
      rfl

/-- The pool's quote through its dividend and divisor. -/
theorem quote_pos_iff (divides : divisor reserveIn feeBps amountIn ≠ 0) :
    1 ≤ DexPool.xyKQuote reserveIn reserveOut feeBps amountIn ↔
      divisor reserveIn feeBps amountIn ≤
        dividend reserveOut feeBps amountIn % (divisor reserveIn feeBps amountIn * 2 ^ 64) := by
  have quoted : DexPool.xyKQuote reserveIn reserveOut feeBps amountIn =
      wrap 64 (dividend reserveOut feeBps amountIn / divisor reserveIn feeBps amountIn) := rfl
  have least := WhaleSwaps.wrap_div_le_iff (dividend reserveOut feeBps amountIn)
    (divisor reserveIn feeBps amountIn) 0 (Nat.pos_of_ne_zero divides)
  rw [quoted]
  omega

theorem divisor_of_le (fee : feeBps ≤ 10000) (inSmall : reserveIn < 2 ^ 64)
    (small : amountIn < 2 ^ 64) (filled : 0 < reserveIn) :
    divisor reserveIn feeBps amountIn ≠ 0 := by
  have counts : amountIn * (10000 - feeBps) ≤ amountIn * 10000 :=
    Nat.mul_le_mul_left amountIn (Nat.sub_le 10000 feeBps)
  rw [divisor, counted, wrappingSub_of_le 128 10000 feeBps fee (by norm_num),
    wrap_of_lt 128 (amountIn * (10000 - feeBps)) (by omega), wrap_of_lt 128 _ (by omega)]
  omega

/-- The simulator stays at or below the pool's quote exactly in the bounded cases. -/
theorem le_quote_iff (feeSmall : feeBps < 2 ^ 64) (inSmall : reserveIn < 2 ^ 64)
    (outSmall : reserveOut < 2 ^ 64) (small : amountIn < 2 ^ 64) (filled : 0 < reserveIn)
    (stocked : 0 < reserveOut) :
    (divisor reserveIn feeBps amountIn ≠ 0 ∧
        xyKQuote reserveIn reserveOut amountIn true feeBps ≤
          DexPool.xyKQuote reserveIn reserveOut feeBps amountIn) ↔
      Bounded reserveIn reserveOut feeBps amountIn := by
  rcases Nat.eq_zero_or_pos amountIn with none | paid
  · have nothing : xyKQuote reserveIn reserveOut amountIn true feeBps = 0 := by
      rw [xyKQuote, if_pos (Or.inr (Or.inr none))]
    have divides : divisor reserveIn feeBps amountIn ≠ 0 := by
      rw [divisor, counted, none, Nat.zero_mul, wrap_of_lt 128 0 (by norm_num), Nat.add_zero,
        wrap_of_lt 128 _ (by omega)]
      omega
    rw [nothing]
    exact iff_of_true ⟨divides, Nat.zero_le _⟩ (Or.inr (Or.inr (Or.inl none)))
  have live : Bounded reserveIn reserveOut feeBps amountIn ↔
      if feeBps ≤ 10000 then RoundingIdle reserveIn reserveOut feeBps amountIn
      else WrapsCovered reserveIn reserveOut feeBps amountIn := by
    rw [Bounded, or_iff_right (by omega), or_iff_right (by omega), or_iff_right (by omega)]
  rw [live]
  split
  · next fee =>
      rw [le_quote_iff_of_le reserveIn reserveOut feeBps amountIn fee inSmall outSmall small filled
        stocked paid]
      exact and_iff_right (divisor_of_le reserveIn feeBps amountIn fee inSmall small filled)
  · next fee =>
      rw [WrapsCovered, xyKQuote_of_gt reserveIn reserveOut feeBps amountIn (by omega) feeSmall
        inSmall outSmall small filled stocked paid]
      apply and_congr_right
      intro divides
      rw [← quote_pos_iff reserveIn reserveOut feeBps amountIn divides, ← or_assoc]
      split
      · next idle => exact iff_of_true (Nat.zero_le _) (Or.inl idle)
      · next busy => exact (or_iff_right busy).symm

end Formula

section Pools

variable {F : Type} [FloatArith F] (powf : F → F → F)

/-- The simulator's quote on a pool's reserves in a direction. -/
def simulated (pool : DexPool) (now : Instant) (aToB : Bool) (amountIn : Nat) : Nat :=
  xyKQuote (pool.effectiveReserves now).1 (pool.effectiveReserves now).2 amountIn aToB pool.feeBps

/-- The reserves a direction pays into and out of. -/
def sides (pool : DexPool) (now : Instant) (aToB : Bool) : Nat × Nat :=
  if aToB then pool.effectiveReserves now else (pool.effectiveReserves now).swap

/-- The pool's quote returns, the simulator's is no larger, and a back-run it judges profitable
is so under the pool's quote. -/
structure NeverAbove (pool : DexPool) (now : Instant) (aToB : Bool) (amountIn : Nat) : Prop where
  returns : (sides pool now aToB).1 = 0 ∨ (sides pool now aToB).2 = 0 ∨
    divisor (sides pool now aToB).1 pool.feeBps amountIn ≠ 0
  bound : simulated pool now aToB amountIn ≤ pool.quote powf now aToB amountIn
  profitable : ∀ borrow ∈ borrowAmounts,
    JudgedProfitable (simulated pool now aToB amountIn) borrow →
      borrow + minProfitLamports ≤ pool.quote powf now aToB amountIn

theorem simulated_eq (pool : DexPool) (now : Instant) (aToB : Bool) (amountIn : Nat) :
    simulated pool now aToB amountIn =
      xyKQuote (sides pool now aToB).1 (sides pool now aToB).2 amountIn true pool.feeBps := by
  cases aToB with
  | true => rfl
  | false => exact xyKQuote_false _ _ _ _

theorem quote_eq (pool : DexPool) (now : Instant) (aToB : Bool) (amountIn : Nat)
    (plain : pool.IsXyK) :
    pool.quote powf now aToB amountIn =
      if (sides pool now aToB).1 = 0 ∨ (sides pool now aToB).2 = 0 then 0
      else DexPool.xyKQuote (sides pool now aToB).1 (sides pool now aToB).2 pool.feeBps
        amountIn := by
  rw [RouteExecution.quote_of_isXyK powf _ _ _ _ plain, RouteExecution.xyQuote]
  cases aToB with
  | true => rfl
  | false =>
      have order : ((pool.effectiveReserves now).1 = 0 ∨ (pool.effectiveReserves now).2 = 0) ↔
          ((pool.effectiveReserves now).2 = 0 ∨ (pool.effectiveReserves now).1 = 0) := or_comm
      simp only [sides, order, Bool.false_eq_true, if_false, Prod.fst_swap, Prod.snd_swap]

theorem xyKQuote_lt (ra rb amountIn feeBps : Nat) (aToB : Bool) :
    xyKQuote ra rb amountIn aToB feeBps < 2 ^ 64 := by
  have small : ∀ n, wrap 64 n < 2 ^ 64 := fun n => Nat.mod_lt n (by norm_num)
  rw [xyKQuote]
  dsimp only
  split_ifs
  · norm_num
  · norm_num
  · exact small _
  · norm_num
  · exact small _

/-- A judged profit is a profit. -/
theorem profit_of_judged (finalAmount borrow : Nat) (small : finalAmount < 2 ^ 64)
    (tried : borrow ∈ borrowAmounts) (judged : JudgedProfitable finalAmount borrow) :
    borrow + minProfitLamports ≤ finalAmount := by
  have loan : borrow ≤ 1000000000 := by
    simp only [borrowAmounts, List.mem_cons, List.not_mem_nil, or_false] at tried
    omega
  rw [JudgedProfitable, wrapI64_of_bounds borrow (by omega) (by omega), minProfitLamports]
    at judged
  rw [minProfitLamports]
  rcases Nat.lt_or_ge finalAmount (2 ^ 63) with low | high
  · rw [wrapI64_of_bounds finalAmount (by omega) (by omega)] at judged
    rw [wrapI64_of_bounds _ (by omega) (by omega)] at judged
    omega
  · omega

/-- The simulator never overestimates exactly in the bounded cases. -/
theorem neverAbove_iff (pool : DexPool) (now : Instant) (aToB : Bool) (amountIn : Nat)
    (plain : pool.IsXyK) (feeSmall : pool.feeBps < 2 ^ 64)
    (smallA : (pool.effectiveReserves now).1 < 2 ^ 64)
    (smallB : (pool.effectiveReserves now).2 < 2 ^ 64) (small : amountIn < 2 ^ 64) :
    NeverAbove powf pool now aToB amountIn ↔
      Bounded (sides pool now aToB).1 (sides pool now aToB).2 pool.feeBps amountIn := by
  have smallIn : (sides pool now aToB).1 < 2 ^ 64 := by
    cases aToB with
    | true => exact smallA
    | false => exact smallB
  have smallOut : (sides pool now aToB).2 < 2 ^ 64 := by
    cases aToB with
    | true => exact smallB
    | false => exact smallA
  have judged : simulated pool now aToB amountIn ≤ pool.quote powf now aToB amountIn →
      ∀ borrow ∈ borrowAmounts, JudgedProfitable (simulated pool now aToB amountIn) borrow →
        borrow + minProfitLamports ≤ pool.quote powf now aToB amountIn := by
    intro bound borrow tried profitable
    exact le_trans (profit_of_judged _ borrow (xyKQuote_lt _ _ _ _ _) tried profitable) bound
  have quoted := quote_eq powf pool now aToB amountIn plain
  by_cases empty : (sides pool now aToB).1 = 0 ∨ (sides pool now aToB).2 = 0
  · have nothing : simulated pool now aToB amountIn = 0 := by
      rw [simulated_eq, xyKQuote, if_pos (by omega)]
    have bound : simulated pool now aToB amountIn ≤ pool.quote powf now aToB amountIn := by
      rw [nothing]
      exact Nat.zero_le _
    rw [Bounded, ← or_assoc]
    exact iff_of_true ⟨by omega, bound, judged bound⟩ (Or.inl empty)
  · rw [if_neg empty] at quoted
    rw [← le_quote_iff _ _ _ _ feeSmall smallIn smallOut small (by omega) (by omega), ← quoted,
      ← simulated_eq]
    constructor
    · intro never
      exact ⟨by have returns := never.returns; omega, never.bound⟩
    · rintro ⟨divides, bound⟩
      exact ⟨Or.inr (Or.inr divides), bound, judged bound⟩

end Pools

/-- Nothing is left uncharged where the fee divides. -/
theorem bounded_of_dvd (reserveIn reserveOut feeBps amountIn : Nat) (fee : feeBps ≤ 10000)
    (divides : 10000 ∣ amountIn * feeBps)
    (fits : amountIn * (10000 - feeBps) * reserveOut < 2 ^ 128) :
    Bounded reserveIn reserveOut feeBps amountIn := by
  have none : uncharged feeBps amountIn = 0 := Nat.mod_eq_zero_of_dvd divides
  right; right; right
  rw [if_pos fee, RoundingIdle, none, Nat.add_zero]
  exact ⟨fits, fun _ _ afforded => afforded⟩

/-- One unit against a pool at (1, 2) with the usual 25 basis points. -/
def tinyPool : DexPool :=
  { ShredReserves.polledPool with reserveA := 1, reserveB := 2, feeBps := 25 }

/-- The simulator pays one unit, the pool nothing. -/
theorem floored_fee_above :
    tinyPool.IsXyK ∧ tinyPool.feeBps = 25 ∧ simulated tinyPool 0 true 1 = 1 ∧
      tinyPool.quote (fun base _ => base : ℚ → ℚ → ℚ) 0 true 1 = 0 ∧
      ¬ NeverAbove (fun base _ => base : ℚ → ℚ → ℚ) tinyPool 0 true 1 := by
  have above : simulated tinyPool 0 true 1 = 1 := by decide
  have quoted : tinyPool.quote (fun base _ => base : ℚ → ℚ → ℚ) 0 true 1 = 0 := by decide +kernel
  refine ⟨⟨rfl, rfl⟩, rfl, above, quoted, ?_⟩
  intro never
  have bound := never.bound
  omega

/-- The loans tried are multiples of 400. -/
theorem deepPool_never_above :
    NeverAbove (fun base _ => base : ℚ → ℚ → ℚ) deepPool 0 true 100000000 :=
  (neverAbove_iff (fun base _ => base : ℚ → ℚ → ℚ) deepPool 0 true 100000000 ⟨rfl, rfl⟩
    (by decide) (by rw [deepPool_reserves]; norm_num) (by rw [deepPool_reserves]; norm_num)
    (by norm_num)).mpr (bounded_of_dvd _ _ _ _ (by decide) (by decide)
      (by rw [sides, if_pos rfl, deepPool_reserves]; decide))

end Helios.BackrunQuote
