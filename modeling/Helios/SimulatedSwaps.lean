import Helios.ConstantProduct
import Helios.SwapObservers

/-! What the tracker's simulated swaps do to the reserves a reader sees. The amount is read
off an unconfirmed instruction, and the operators on it are not checked. -/

namespace Helios.SimulatedSwaps

open ConstantProduct Deliveries FreshReserves Machine Runs SwapDecoder SwapObservers Tracked

/-- What the tracker takes the swap to pay out. -/
def amountOut (held : DexPool) (now : Instant) (isVaultA : Bool) (amountIn : Nat) : Nat :=
  simulatedOut held (paidIn isVaultA (held.effectiveReserves now))
    (paidOut isVaultA (held.effectiveReserves now)) amountIn

/-- No product, cast or sum on the way leaves its type. -/
structure Unwrapped (held : DexPool) (now : Instant) (isVaultA : Bool) (amountIn : Nat) :
    Prop where
  fee : amountIn * held.feeBps < 2 ^ 64
  amount : amountIn < 2 ^ 63
  paid : amountOut held now isVaultA amountIn < 2 ^ 63
  baseIn : paidIn isVaultA held.shredBase < 2 ^ 63
  baseOut : paidOut isVaultA held.shredBase < 2 ^ 63
  sum : paidIn isVaultA held.shredBase + amountIn < 2 ^ 63

/-- The reserves read within 10 s are those read before with the swap's two amounts, less than
the reserve is paid out, the product does not fall, and nothing wraps. -/
structure Moves (held after : DexPool) (now : Instant) (isVaultA : Bool) (amountIn : Nat) :
    Prop where
  reads : ∀ later, now.elapsedSecs later < 10 → after.effectiveReserves later =
    changedBy isVaultA amountIn (amountOut held now isVaultA amountIn) (held.effectiveReserves now)
  below : amountOut held now isVaultA amountIn < paidOut isVaultA (held.effectiveReserves now)
  product : paidIn isVaultA (held.effectiveReserves now) *
      paidOut isVaultA (held.effectiveReserves now) ≤
    (paidIn isVaultA (held.effectiveReserves now) + amountIn) *
      (paidOut isVaultA (held.effectiveReserves now) - amountOut held now isVaultA amountIn)
  unwrapped : Unwrapped held now isVaultA amountIn

/-- The copy the delta is added to is the copy it was computed from, and the amount, its fee
and the reserves are small enough. -/
structure Ready (held : DexPool) (now : Instant) (isVaultA : Bool) (amountIn : Nat) : Prop where
  base : held.shredBase = held.effectiveReserves now
  fee : amountIn * held.feeBps < 2 ^ 64
  fitsIn : paidIn isVaultA (held.effectiveReserves now) + amountIn < 2 ^ 63
  fitsOut : paidOut isVaultA (held.effectiveReserves now) < 2 ^ 63

section Pool

variable (held : DexPool) (now : Instant) (isVaultA : Bool) (amountIn : Nat)

/-- The simulation pays out no more than the fee-free output. -/
theorem simulatedOut_le_output (reserveIn reserveOut : Nat) (small : reserveOut < 2 ^ 64) :
    simulatedOut held reserveIn reserveOut amountIn ≤ output reserveIn reserveOut amountIn := by
  have net : amountIn - wrap 64 (amountIn * held.feeBps) / 10000 ≤ amountIn := Nat.sub_le _ _
  have exact : simulatedOut held reserveIn reserveOut amountIn =
      output reserveIn reserveOut (amountIn - wrap 64 (amountIn * held.feeBps) / 10000) := by
    rw [simulatedOut, output, Nat.mul_comm reserveOut]
    have within := output_le reserveIn reserveOut
      (amountIn - wrap 64 (amountIn * held.feeBps) / 10000)
    rw [output] at within
    exact wrap_of_lt 64 _ (lt_of_le_of_lt within small)
  rw [exact]
  exact output_mono _ _ _ _ net

theorem positive_sides (positiveA : 0 < (held.effectiveReserves now).1)
    (positiveB : 0 < (held.effectiveReserves now).2) :
    0 < paidIn isVaultA (held.effectiveReserves now) ∧
      0 < paidOut isVaultA (held.effectiveReserves now) := by
  cases isVaultA with
  | true => exact ⟨positiveA, positiveB⟩
  | false => exact ⟨positiveB, positiveA⟩

theorem moves_of_ready (positiveA : 0 < (held.effectiveReserves now).1)
    (positiveB : 0 < (held.effectiveReserves now).2) (ready : Ready held now isVaultA amountIn) :
    Moves held (held.applySimulatedSwap now isVaultA amountIn) now isVaultA amountIn := by
  rcases positive_sides held now isVaultA positiveA positiveB with ⟨filledIn, filledOut⟩
  have fitsIn := ready.fitsIn
  have fitsOut := ready.fitsOut
  have less : amountOut held now isVaultA amountIn <
      paidOut isVaultA (held.effectiveReserves now) :=
    simulatedOut_lt held _ _ amountIn filledIn filledOut fitsOut
  constructor
  · intro later recent
    exact (applySimulatedSwap_reads held now later isVaultA amountIn ready.base recent positiveA
      positiveB fitsIn fitsOut).2
  · exact less
  · rw [product_le_iff _ _ _ _ filledIn filledOut]
    exact simulatedOut_le_output held amountIn _ _ (by omega)
  · constructor
    · exact ready.fee
    · omega
    · omega
    · rw [ready.base]
      omega
    · rw [ready.base]
      exact fitsOut
    · rw [ready.base]
      exact fitsIn

/-- The two sums of a delta none of whose operators wraps, whatever copy it is added to. -/
theorem addDelta_of_unwrapped (baseIn baseOut reserveIn reserveOut : Nat)
    (sum : baseIn + amountIn < 2 ^ 63) (small : baseOut < 2 ^ 63)
    (paid : simulatedOut held reserveIn reserveOut amountIn < 2 ^ 63) :
    DexPool.addDelta baseIn (held.simulatedDelta reserveIn reserveOut amountIn).1 =
        baseIn + amountIn ∧
      DexPool.addDelta baseOut (held.simulatedDelta reserveIn reserveOut amountIn).2 =
        baseOut - simulatedOut held reserveIn reserveOut amountIn := by
  have pair : held.simulatedDelta reserveIn reserveOut amountIn =
      (wrapI64 amountIn, wrapI64 (-wrapI64 (simulatedOut held reserveIn reserveOut amountIn))) := rfl
  rw [pair]
  generalize simulatedOut held reserveIn reserveOut amountIn = out at paid ⊢
  have added : wrapI64 (amountIn : Int) = amountIn := wrapI64_of_bounds _ (by omega) (by omega)
  have taken : wrapI64 (-wrapI64 (out : Int)) = -(out : Int) := by
    rw [wrapI64_of_bounds (out : Int) (by omega) (by omega)]
    exact wrapI64_of_bounds _ (by omega) (by omega)
  dsimp only
  rw [added, taken, ShredReserves.addDelta_of_lt _ _ (by omega) (by omega) (by omega),
    ShredReserves.addDelta_of_lt _ _ small (by omega) (by omega), ShredReserves.shifted,
    ShredReserves.shifted]
  omega

/-- What is read at once, if nothing wraps: the sums over the copy added to, or the polled pair
if one of them is not positive. -/
theorem reads_of_unwrapped (unwrapped : Unwrapped held now isVaultA amountIn) :
    (held.applySimulatedSwap now isVaultA amountIn).effectiveReserves now =
      if 0 < paidIn isVaultA held.shredBase + amountIn ∧
          0 < paidOut isVaultA held.shredBase - amountOut held now isVaultA amountIn then
        changedBy isVaultA amountIn (amountOut held now isVaultA amountIn) held.shredBase
      else (held.reserveA, held.reserveB) := by
  have here : now.elapsedSecs now < 10 := by simp [Instant.elapsedSecs]
  rcases addDelta_of_unwrapped held amountIn _ _ _ _ unwrapped.sum unwrapped.baseOut
    unwrapped.paid with ⟨first, second⟩
  cases isVaultA with
  | true =>
      rw [applySimulatedSwap_a]
      dsimp only
      rw [ShredReserves.effectiveReserves_applyShredDelta _ _ _ _ _ here]
      simp only [paidIn, paidOut, if_true] at first second
      rw [first, second]
      rfl
  | false =>
      rw [applySimulatedSwap_b]
      dsimp only
      rw [ShredReserves.effectiveReserves_applyShredDelta _ _ _ _ _ here]
      simp only [paidIn, paidOut, Bool.false_eq_true, if_false] at first second
      rw [first, second]
      simp only [and_comm]
      rfl

theorem ready_of_moves (paid : 0 < amountIn)
    (moves : Moves held (held.applySimulatedSwap now isVaultA amountIn) now isVaultA amountIn) :
    Ready held now isVaultA amountIn := by
  have unwrapped := moves.unwrapped
  have here : now.elapsedSecs now < 10 := by simp [Instant.elapsedSecs]
  have read := moves.reads now here
  have less := moves.below
  rw [reads_of_unwrapped held now isVaultA amountIn unwrapped] at read
  have agree : held.shredBase = held.effectiveReserves now := by
    by_contra differ
    rcases ShredReserves.shredBase_ne held now differ with ⟨-, seen, -⟩
    rw [seen] at read differ less
    generalize held.shredBase = base at read differ
    generalize amountOut held now isVaultA amountIn = out at read less
    rcases base with ⟨baseA, baseB⟩
    split at read
    · next both =>
        rw [Prod.mk.injEq] at differ
        cases isVaultA with
        | true =>
            simp only [changedBy, paidOut, if_true, Prod.mk.injEq] at read both less
            omega
        | false =>
            simp only [changedBy, paidOut, Bool.false_eq_true, if_false, Prod.mk.injEq] at read both
            omega
    · -- the polled pair is read, which the swap does not touch
      cases isVaultA with
      | true =>
          simp only [changedBy, if_true, Prod.mk.injEq] at read
          omega
      | false =>
          simp only [changedBy, Bool.false_eq_true, if_false, Prod.mk.injEq] at read
          omega
  have sum := unwrapped.sum
  have small := unwrapped.baseOut
  rw [agree] at sum small
  exact ⟨agree, unwrapped.fee, sum, small⟩

end Pool

section Transaction

variable (now : Instant) (tx : TxMessage)

/-- The law for one instruction: if the tracker simulates a swap for it, the pool it finds is
moved by that swap. -/
def SwapMoves (state : Tracked) (ix : CompiledInstruction) : Prop :=
  ∀ vault pool isVaultA amountIn,
    simulated now tx.accountKeys state ix = some (vault, pool, isVaultA, amountIn) →
      ∃ held after, state.cache.get pool = some held ∧
        (afterSwap now tx.accountKeys state ix).cache.get pool = some after ∧
        Moves held after now isVaultA amountIn

/-- The condition on the pool as the instruction finds it. -/
def SwapReady (state : Tracked) (ix : CompiledInstruction) : Prop :=
  ∀ vault pool isVaultA amountIn,
    simulated now tx.accountKeys state ix = some (vault, pool, isVaultA, amountIn) →
      ∀ held, state.cache.get pool = some held → Ready held now isVaultA amountIn

theorem simulated_spec (state : Tracked) (ix : CompiledInstruction) (vault pool : Pubkey)
    (isVaultA : Bool) (amountIn : Nat)
    (found : simulated now tx.accountKeys state ix = some (vault, pool, isVaultA, amountIn)) :
    0 < amountIn ∧ ∃ held, state.cache.get pool = some held ∧
      0 < (held.effectiveReserves now).1 ∧ 0 < (held.effectiveReserves now).2 ∧
      (afterSwap now tx.accountKeys state ix).cache.get pool =
        some (held.applySimulatedSwap now isVaultA amountIn) := by
  have moved := afterSwap_spec now tx.accountKeys state ix
  rw [found] at moved
  rw [simulated] at found
  split at found
  · cases found
  · next amount seen =>
      split at found
      · cases found
      · next nonzero =>
          rcases Option.map_eq_some_iff.mp found with ⟨⟨key, address, side⟩, stopped, same⟩
          cases same
          rcases reached_spec now tx.accountKeys state ix.accounts vault pool isVaultA stopped with
            ⟨held, cached, positiveA, positiveB⟩
          refine ⟨Nat.pos_of_ne_zero nonzero, held, cached, positiveA, positiveB, ?_⟩
          rw [moved]
          change (state.cache.getMut pool _).get pool = _
          rw [PoolStateCache.get_getMut, if_pos rfl, cached, Option.map_some]

theorem swapMoves_iff_ready (state : Tracked) (ix : CompiledInstruction) :
    SwapMoves now tx state ix ↔ SwapReady now tx state ix := by
  constructor
  · intro moves vault pool isVaultA amountIn found held cached
    rcases simulated_spec now tx state ix vault pool isVaultA amountIn found with
      ⟨paid, other, known, -, -, after⟩
    rcases moves vault pool isVaultA amountIn found with ⟨before, next, had, has, moved⟩
    rw [cached] at known had
    rw [after] at has
    cases known
    cases had
    cases has
    exact ready_of_moves held now isVaultA amountIn paid moved
  · intro ready vault pool isVaultA amountIn found
    rcases simulated_spec now tx state ix vault pool isVaultA amountIn found with
      ⟨-, held, cached, positiveA, positiveB, after⟩
    exact ⟨held, _, cached, after, moves_of_ready held now isVaultA amountIn positiveA positiveB
      (ready vault pool isVaultA amountIn found held cached)⟩

/-- Every swap a transaction makes the tracker simulate moves its pool as claimed exactly if
every pool is ready when the swap gets to it. -/
theorem simulated_swaps_move_iff (state : Tracked) :
    (∀ pair ∈ trace (afterSwap now tx.accountKeys) (scanned state) tx.instructions,
        SwapMoves now tx pair.1 pair.2) ↔
      ∀ pair ∈ trace (afterSwap now tx.accountKeys) (scanned state) tx.instructions,
        SwapReady now tx pair.1 pair.2 := by
  constructor
  · intro moves pair member
    exact (swapMoves_iff_ready now tx pair.1 pair.2).mp (moves pair member)
  · intro ready pair member
    exact (swapMoves_iff_ready now tx pair.1 pair.2).mpr (ready pair member)

end Transaction

/-! A Raydium swap whose data name the largest `u64` as its amount, on a pool of (1000, 1000). -/

def hugeIx : CompiledInstruction := ⟨1, [0, 2, 3], 9 :: List.replicate 16 255⟩

def hugeTx : TxMessage := ⟨swapTx.accountKeys, [hugeIx]⟩

def watching : Tracked := ⟨twoTrackers.turbine, twoTrackers.cache⟩

/-- The amount is read as -1: the reserve paid into falls to 999, and the other to 1. -/
theorem huge_amount_shrinks :
    ¬ ∀ pair ∈ trace (afterSwap 0 hugeTx.accountKeys) (scanned watching) hugeTx.instructions,
      SwapMoves 0 hugeTx pair.1 pair.2 := by
  intro moves
  have found : simulated 0 hugeTx.accountKeys (scanned watching) hugeIx =
      some (.ofNat 3, .ofNat 2, true, 2 ^ 64 - 1) := by decide +kernel
  have read : ((afterSwap 0 hugeTx.accountKeys (scanned watching) hugeIx).cache.get (.ofNat 2)).map
      (fun pool => pool.effectiveReserves 0) = some (999, 1) := by decide +kernel
  have known : (scanned watching).cache.get (.ofNat 2) = some Deliveries.tradedPool := rfl
  rcases moves (scanned watching, hugeIx) List.mem_cons_self _ _ _ _ found with
    ⟨held, after, cached, moved, law⟩
  have claimed := law.reads 0 (by decide)
  rw [known] at cached
  cases cached
  rw [moved, Option.map_some, Option.some.injEq, claimed] at read
  have first : 1000 + (2 ^ 64 - 1) = 999 := congrArg Prod.fst read
  norm_num at first

end Helios.SimulatedSwaps
