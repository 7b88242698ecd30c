import Helios.Meteora
import Helios.Orca
import Helios.Types

/-! Cached pools: their two copies of the reserves and their quotes. -/

namespace Helios

open Machine

/-- A monotonic clock reading in nanoseconds. -/
abbrev Instant := Nat

namespace Instant

def elapsedSecs (since now : Instant) : Nat := (now - since) / 10 ^ 9

end Instant

structure RaydiumMetadata where
  authority : Pubkey
  nonce : UInt8
  openOrders : Pubkey
  targetOrders : Pubkey
  vaultA : Pubkey
  vaultB : Pubkey
  marketId : Pubkey
  marketProgram : Pubkey
  marketEventQueue : Pubkey
  marketBids : Pubkey
  marketAsks : Pubkey
  marketBaseVault : Pubkey
  marketQuoteVault : Pubkey
  marketVaultSigner : Pubkey
  deriving DecidableEq

structure OrcaMetadata where
  tokenVaultA : Pubkey
  tokenVaultB : Pubkey
  liquidity : Nat
  sqrtPrice : Nat
  tickSpacing : Nat
  tickCurrentIndex : Int
  tickArrays : HashMap Int Orca.OrcaTickArray
  deriving DecidableEq

structure MeteoraMetadata where
  activeId : Int
  binStep : Nat
  tokenVaultA : Pubkey
  tokenVaultB : Pubkey
  parameters : Meteora.MeteoraStaticParameters
  vParameters : Meteora.MeteoraVariableParameters
  binArrays : HashMap Int Meteora.MeteoraBinArray
  deriving DecidableEq

structure DexPool where
  poolAddress : Pubkey
  dexType : DexType
  tokenA : Pubkey
  tokenB : Pubkey
  decimalsA : Nat
  decimalsB : Nat
  reserveA : Nat
  reserveB : Nat
  reserveAOptimistic : Nat
  reserveBOptimistic : Nat
  lastShredUpdate : Instant
  poolVaultABalance : Nat
  poolVaultBBalance : Nat
  marketVaultABalance : Nat
  marketVaultBBalance : Nat
  lastUpdated : Instant
  feeBps : Nat
  raydiumMeta : Option RaydiumMetadata
  orcaMeta : Option OrcaMetadata
  meteoraMeta : Option MeteoraMetadata
  deriving DecidableEq

namespace DexPool

/-- The optimistic pair if both sides are positive and less than 10 s old, the
polled pair otherwise. -/
def effectiveReserves (pool : DexPool) (now : Instant) : Nat × Nat :=
  if 0 < pool.reserveAOptimistic ∧ 0 < pool.reserveBOptimistic ∧
      pool.lastShredUpdate.elapsedSecs now < 10 then
    (pool.reserveAOptimistic, pool.reserveBOptimistic)
  else
    (pool.reserveA, pool.reserveB)

/-- The pair `applyShredDelta` adds to: only the `a` side is looked at. -/
def shredBase (pool : DexPool) : Nat × Nat :=
  if 0 < pool.reserveAOptimistic then (pool.reserveAOptimistic, pool.reserveBOptimistic)
  else (pool.reserveA, pool.reserveB)

/-- `(base as i64 + delta).max(0) as u64`. -/
def addDelta (base : Nat) (delta : Int) : Nat :=
  (wrapI64 (wrapI64 base + delta)).toNat

def applyShredDelta (pool : DexPool) (now : Instant) (deltaA deltaB : Int) : DexPool :=
  { pool with
    reserveAOptimistic := addDelta pool.shredBase.1 deltaA
    reserveBOptimistic := addDelta pool.shredBase.2 deltaB
    lastShredUpdate := now }

def updateReserveA (pool : DexPool) (now : Instant) (amount : Nat) : DexPool :=
  { pool with reserveA := amount, lastUpdated := now }

def updateReserveB (pool : DexPool) (now : Instant) (amount : Nat) : DexPool :=
  { pool with reserveB := amount, lastUpdated := now }

def updateReserveByVault (pool : DexPool) (now : Instant) (isVaultA : Bool)
    (newBalance : Nat) : DexPool :=
  let old := if isVaultA then pool.reserveA else pool.reserveB
  if old = newBalance then pool
  else if isVaultA then pool.updateReserveA now newBalance
  else pool.updateReserveB now newBalance

/-- One vault of `apply_vault_balances`: both copies of its side are set. -/
def applyVaultBalance (pool : DexPool) (now : Instant) (isVaultA : Bool)
    (balance : Nat) : DexPool :=
  if isVaultA then
    { pool with
      reserveA := balance, reserveAOptimistic := balance
      lastShredUpdate := now, lastUpdated := now }
  else
    { pool with
      reserveB := balance, reserveBOptimistic := balance
      lastShredUpdate := now, lastUpdated := now }

/-- The constant-product quote on `u128`, operators unchecked as in the release
profile. A zero divisor aborts the source; it needs a fee above 10000. -/
def xyKQuote (reserveIn reserveOut feeBps amountIn : Nat) : Nat :=
  let feeNumerator := wrappingSub 128 10000 feeBps
  let amountInWithFee := wrap 128 (amountIn * feeNumerator)
  let numerator := wrap 128 (amountInWithFee * reserveOut)
  let denominator := wrap 128 (reserveIn * 10000 + amountInWithFee)
  wrap 64 (numerator / denominator)

/-- No operator of the quote wraps. -/
theorem xyKQuote_of_fits (reserveIn reserveOut feeBps amountIn : Nat) (fee : feeBps ≤ 10000)
    (inSmall : reserveIn < 2 ^ 64) (outSmall : reserveOut < 2 ^ 64) (small : amountIn < 2 ^ 64)
    (product : amountIn * (10000 - feeBps) * reserveOut < 2 ^ 128) :
    xyKQuote reserveIn reserveOut feeBps amountIn =
      amountIn * (10000 - feeBps) * reserveOut /
        (reserveIn * 10000 + amountIn * (10000 - feeBps)) := by
  have paid : amountIn * (10000 - feeBps) ≤ amountIn * 10000 :=
    Nat.mul_le_mul_left amountIn (Nat.sub_le 10000 feeBps)
  have quotient : amountIn * (10000 - feeBps) * reserveOut /
      (reserveIn * 10000 + amountIn * (10000 - feeBps)) < 2 ^ 64 := by
    apply lt_of_le_of_lt _ outSmall
    apply Nat.div_le_of_le_mul
    exact Nat.mul_le_mul_right reserveOut (Nat.le_add_left _ _)
  rw [xyKQuote, wrappingSub_of_le 128 10000 feeBps fee (by norm_num),
    wrap_of_lt 128 (amountIn * (10000 - feeBps)) (by omega), wrap_of_lt 128 _ product,
    wrap_of_lt 128 _ (by omega), wrap_of_lt 64 _ quotient]

theorem xyKQuote_eq (reserveIn reserveOut feeBps amountIn : Nat) (fee : feeBps ≤ 10000)
    (inSmall : reserveIn < 2 ^ 64) (outSmall : reserveOut < 2 ^ 64) (small : amountIn < 2 ^ 64)
    (unwrapped : amountIn * 10000 * reserveOut < 2 ^ 128) :
    xyKQuote reserveIn reserveOut feeBps amountIn =
      amountIn * (10000 - feeBps) * reserveOut /
        (reserveIn * 10000 + amountIn * (10000 - feeBps)) := by
  have paid : amountIn * (10000 - feeBps) ≤ amountIn * 10000 :=
    Nat.mul_le_mul_left amountIn (Nat.sub_le 10000 feeBps)
  apply xyKQuote_of_fits reserveIn reserveOut feeBps amountIn fee inSmall outSmall small
  exact lt_of_le_of_lt (Nat.mul_le_mul_right reserveOut paid) unwrapped

/-- No concentrated-liquidity metadata: quoted as `x * y = k`. -/
def IsXyK (pool : DexPool) : Prop := pool.orcaMeta = none ∧ pool.meteoraMeta = none

instance (pool : DexPool) : Decidable pool.IsXyK := by
  unfold IsXyK
  infer_instance

section Quotes

open FloatArith

/-- The quote of a Whirlpool whose tick arrays are not cached. -/
def orcaSingleRangeQuote (F : Type) [FloatArith F] (orca : OrcaMetadata)
    (feeBps amountIn : Nat) (aToB : Bool) : Nat :=
  let amountInAfterFee : F :=
    div (mul (ofNat amountIn) (sub (ofNat 10000) (ofNat feeBps))) (ofNat 10000)
  let sqrtP : F := div (ofNat orca.sqrtPrice) (ofNat (2 ^ 64))
  let l : F := ofNat orca.liquidity
  if aToB then
    let sqrtPNext := div (mul sqrtP l) (add (mul amountInAfterFee sqrtP) l)
    toU64 (mul l (sub sqrtP sqrtPNext))
  else
    let sqrtPNext := add sqrtP (div amountInAfterFee l)
    toU64 (mul l (sub (div (ofNat 1) sqrtP) (div (ofNat 1) sqrtPNext)))

variable {F : Type} [FloatArith F]

/-- `quote_a_to_b` and `quote_b_to_a` are one function of the direction. -/
def quote (powf : F → F → F) (pool : DexPool) (now : Instant) (aToB : Bool)
    (amountIn : Nat) : Nat :=
  let (ra, rb) := pool.effectiveReserves now
  if ra = 0 ∨ rb = 0 then 0
  else
    match pool.orcaMeta with
    | some orca =>
        if orca.liquidity = 0 ∨ orca.sqrtPrice = 0 ∨ orca.tickSpacing = 0 then 0
        else if orca.tickArrays.entries ≠ [] then
          (Orca.quoteExactIn powf amountIn aToB orca.sqrtPrice orca.liquidity
            orca.tickCurrentIndex orca.tickSpacing pool.feeBps orca.tickArrays).amountOut
        else orcaSingleRangeQuote F orca pool.feeBps amountIn aToB
    | none =>
        match pool.meteoraMeta with
        | some meteora =>
            Meteora.quoteExactIn amountIn aToB meteora.activeId meteora.binStep
              meteora.parameters meteora.vParameters meteora.binArrays
        | none =>
            if aToB then xyKQuote ra rb pool.feeBps amountIn
            else xyKQuote rb ra pool.feeBps amountIn

def quoteAToB (powf : F → F → F) (pool : DexPool) (now : Instant) (amountIn : Nat) : Nat :=
  pool.quote powf now true amountIn

def quoteBToA (powf : F → F → F) (pool : DexPool) (now : Instant) (amountIn : Nat) : Nat :=
  pool.quote powf now false amountIn

/-- The tick a Whirlpool is taken to have reached after a swap, from the arrays
its own quote crosses. -/
def estimatedTick (powf : F → F → F) (orca : OrcaMetadata) (feeBps amountIn : Nat)
    (aToB : Bool) : Int :=
  let quote := Orca.quoteExactIn powf amountIn aToB orca.sqrtPrice orca.liquidity
    orca.tickCurrentIndex orca.tickSpacing feeBps orca.tickArrays
  match quote.traversedArrays.getLast? with
  | none => orca.tickCurrentIndex
  | some lastArr =>
      let arrOffset : Int := orca.tickSpacing * Orca.orcaTickArraySize
      if lastArr = Orca.tickArrayStartIndex orca.tickCurrentIndex orca.tickSpacing then
        orca.tickCurrentIndex
      else if aToB then lastArr + arrOffset - 1 else lastArr

def applySwapDelta (powf : F → F → F) (pool : DexPool) (now : Instant)
    (amountIn amountOut : Nat) (aToB : Bool) : DexPool :=
  let moved :=
    if aToB then
      { pool with
        reserveA := saturatingAdd64 pool.reserveA amountIn
        reserveB := pool.reserveB - amountOut }
    else
      { pool with
        reserveB := saturatingAdd64 pool.reserveB amountIn
        reserveA := pool.reserveA - amountOut }
  let moved :=
    if moved.dexType = .orcaWhirlpool then
      { moved with orcaMeta := moved.orcaMeta.map (fun orca =>
          if 0 < amountIn ∧ 0 < orca.liquidity ∧ 0 < orca.sqrtPrice ∧ 0 < orca.tickSpacing then
            { orca with tickCurrentIndex := estimatedTick powf orca moved.feeBps amountIn aToB }
          else orca) }
    else moved
  { moved with lastUpdated := now }

end Quotes

end DexPool

end Helios
