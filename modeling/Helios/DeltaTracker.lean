import Helios.DecoderTotality
import Helios.PoolCache
import Helios.SwapDecoder

/-! The tracker of swaps and token transfers in transactions read off shreds. Several
trackers may write to one pool cache, so each step takes the tracker together with
the cache. -/

namespace Helios

open Machine SwapDecoder

structure ShredDeltaTracker where
  /-- The pool of a vault, and whether it is the pool's vault A. -/
  vaultToPool : HashMap Pubkey (Pubkey × Bool)
  poolSwapCounts : HashMap Pubkey Nat
  /-- The venue and the slot a pool outside the cache was first seen with. -/
  unknownPools : HashMap Pubkey (String × Nat)
  dirtyVaults : HashMap Pubkey Instant
  txsScanned : Nat
  transfersFound : Nat
  vaultUpdates : Nat

namespace ShredDeltaTracker

def token2022 : Pubkey := .parse "TokenzQdBNbLqP5VEhdkAS6EPFLC1PHnBqCXEpPxuEb"
def transferDisc : UInt8 := 3
def transferCheckedDisc : UInt8 := 12

/-- `new`, with the vault index the cache gives. -/
def new (index : HashMap Pubkey (Pubkey × Bool)) : ShredDeltaTracker :=
  ⟨index, HashMap.empty, HashMap.empty, HashMap.empty, 0, 0, 0⟩

def registerVault (tracker : ShredDeltaTracker) (vault pool : Pubkey) (isVaultA : Bool) :
    ShredDeltaTracker :=
  { tracker with vaultToPool := tracker.vaultToPool.insert vault (pool, isVaultA) }

/-- The key an account index stands for, with its entry, if it is a known vault. -/
def vaultAt (tracker : ShredDeltaTracker) (keys : List Pubkey) (index : UInt8) :
    Option (Pubkey × Pubkey × Bool) := do
  let key ← keys[index.toNat]?
  let entry ← tracker.vaultToPool.get key
  return (key, entry)

end ShredDeltaTracker

namespace DexPool

/-- The delta the tracker takes a swap of `amountIn` for, from the reserves of the side
paid in and the side paid out: the amount that goes in, and the one that comes out. -/
def simulatedDelta (pool : DexPool) (reserveIn reserveOut amountIn : Nat) : Int × Int :=
  let fee := wrap 64 (amountIn * pool.feeBps) / 10000
  let netIn := amountIn - fee
  let amountOut := wrap 64 (reserveOut * netIn / (reserveIn + netIn))
  (wrapI64 amountIn, wrapI64 (-wrapI64 amountOut))

def applySimulatedSwap (pool : DexPool) (now : Instant) (isVaultA : Bool) (amountIn : Nat) :
    DexPool :=
  let (ra, rb) := pool.effectiveReserves now
  if isVaultA then
    let (into, out) := pool.simulatedDelta ra rb amountIn
    pool.applyShredDelta now into out
  else
    let (into, out) := pool.simulatedDelta rb ra amountIn
    pool.applyShredDelta now out into

/-- The part of `apply_delta` that changes the pool: the polled copy alone. -/
def applyTransfer (pool : DexPool) (isA : Bool) (amount : Nat) (credit : Bool) : DexPool :=
  let moved (old : Nat) := if credit then saturatingAdd64 old amount else old - amount
  if isA then { pool with reserveA := moved pool.reserveA }
  else { pool with reserveB := moved pool.reserveB }

end DexPool

/-- A tracker and the cache it writes to. -/
structure Tracked where
  tracker : ShredDeltaTracker
  cache : PoolStateCache

namespace Tracked

open ShredDeltaTracker

def countVaultUpdate (state : Tracked) : Tracked :=
  { state with tracker :=
      { state.tracker with vaultUpdates := wrap 64 (state.tracker.vaultUpdates + 1) } }

def bumpSwapGeneration (state : Tracked) : Tracked :=
  { state with cache := state.cache.bumpSwapGeneration }

/-- The optimistic reserves of a pool moved by a swap, and the vault marked. -/
def swapped (now : Instant) (key poolAddr : Pubkey) (isVaultA : Bool) (amountIn : Nat)
    (state : Tracked) : Tracked :=
  let marked := { state.tracker with
    vaultUpdates := wrap 64 (state.tracker.vaultUpdates + 1)
    dirtyVaults := state.tracker.dirtyVaults.insert key now }
  let moved := state.cache.getMut poolAddr (fun pool =>
    pool.applySimulatedSwap now isVaultA amountIn)
  ⟨marked, moved.bumpSwapGeneration⟩

/-- The search for the pool of a swap through its accounts. The first vault of a
cached pool decides, except that a pool without reserves is passed over. -/
def simulateSwap (now : Instant) (keys : List Pubkey) (amountIn : Nat) (state : Tracked) :
    List UInt8 → Tracked
  | [] => state
  | index :: rest =>
      match state.tracker.vaultAt keys index with
      | none => simulateSwap now keys amountIn state rest
      | some (key, poolAddr, isVaultA) =>
          match state.cache.get poolAddr with
          | none => state
          | some pool =>
              if (pool.effectiveReserves now).1 = 0 ∨ (pool.effectiveReserves now).2 = 0 then
                simulateSwap now keys amountIn state rest
              else state.swapped now key poolAddr isVaultA amountIn

/-- The vault the search stops at, and the pool and side it stands for. -/
def reached (now : Instant) (keys : List Pubkey) (state : Tracked) :
    List UInt8 → Option (Pubkey × Pubkey × Bool)
  | [] => none
  | index :: rest =>
      match state.tracker.vaultAt keys index with
      | none => reached now keys state rest
      | some (key, poolAddr, isVaultA) =>
          match state.cache.get poolAddr with
          | none => none
          | some pool =>
              if (pool.effectiveReserves now).1 = 0 ∨ (pool.effectiveReserves now).2 = 0 then
                reached now keys state rest
              else some (key, poolAddr, isVaultA)

/-- At most one pool is moved by a swap. -/
theorem simulateSwap_eq (now : Instant) (keys : List Pubkey) (amountIn : Nat) (state : Tracked)
    (accounts : List UInt8) :
    simulateSwap now keys amountIn state accounts = match reached now keys state accounts with
      | none => state
      | some (key, poolAddr, isVaultA) => state.swapped now key poolAddr isVaultA amountIn := by
  induction accounts with
  | nil => rfl
  | cons index rest ih =>
      rw [simulateSwap, reached]
      cases state.tracker.vaultAt keys index with
      | none => exact ih
      | some entry =>
          rcases entry with ⟨key, poolAddr, isVaultA⟩
          dsimp only
          cases state.cache.get poolAddr with
          | none => rfl
          | some pool =>
              dsimp only
              split
              · exact ih
              · rfl

theorem reached_spec (now : Instant) (keys : List Pubkey) (state : Tracked)
    (accounts : List UInt8) (key poolAddr : Pubkey) (isVaultA : Bool)
    (found : reached now keys state accounts = some (key, poolAddr, isVaultA)) :
    ∃ pool, state.cache.get poolAddr = some pool ∧ 0 < (pool.effectiveReserves now).1 ∧
      0 < (pool.effectiveReserves now).2 := by
  induction accounts with
  | nil => cases found
  | cons index rest ih =>
      rw [reached] at found
      cases entry : state.tracker.vaultAt keys index with
      | none =>
          rw [entry] at found
          exact ih found
      | some vault =>
          rcases vault with ⟨vaultKey, address, side⟩
          rw [entry] at found
          dsimp only at found
          cases cached : state.cache.get address with
          | none =>
              rw [cached] at found
              cases found
          | some pool =>
              rw [cached] at found
              dsimp only at found
              split at found
              · exact ih found
              · next filled =>
                  cases found
                  exact ⟨pool, cached, by omega, by omega⟩

/-- The amount a swap pays in, as far as the two venues' data show it. -/
def swapAmount (pid : Pubkey) (data : List UInt8) : Decoded (Option Nat) :=
  if pid = DexPrograms.raydiumAmmV4 then
    if data.length < 9 then pure none
    else do
      let disc ← Account.index data 0
      if disc = 9 then some <$> Account.sliceU64 data 1 else pure none
  else if pid = DexPrograms.pumpswap ∧ 16 ≤ data.length then some <$> Account.sliceU64 data 8
  else pure none

/-- Strategy A, on one instruction. -/
def onSwap (now : Instant) (keys : List Pubkey) (state : Tracked) (ix : CompiledInstruction) :
    Decoded Tracked :=
  match keys[ix.programIdIndex.toNat]? with
  | none => pure state
  | some pid =>
      if pid = DexPrograms.raydiumAmmV4 ∨ pid = DexPrograms.pumpswap then do
        match ← swapAmount pid ix.data with
        | none => pure state
        | some amountIn =>
            if amountIn = 0 then pure state
            else pure (simulateSwap now keys amountIn state ix.accounts)
      else if pid = DexPrograms.orcaWhirlpool ∨ pid = DexPrograms.meteoraDlmm then
        if ix.accounts.any (fun index => (state.tracker.vaultAt keys index).isSome) then
          pure state.countVaultUpdate.bumpSwapGeneration
        else pure state
      else pure state

def applyDelta (state : Tracked) (pool : Pubkey) (isA : Bool) (amount : Nat) (credit : Bool) :
    Tracked :=
  match state.cache.get pool with
  | none => state.countVaultUpdate
  | some _ =>
      { state with cache := state.cache.getMut pool (fun held => held.applyTransfer isA amount credit)
      }.bumpSwapGeneration.countVaultUpdate

/-- One end of a transfer: an account that may be a known vault. -/
def applyEnd (keys : List Pubkey) (accounts : List UInt8) (place amount : Nat) (credit : Bool)
    (state : Tracked) : Tracked :=
  match accounts[place]?.bind (state.tracker.vaultAt keys) with
  | none => state
  | some (_, pool, isA) => state.applyDelta pool isA amount credit

/-- The amount of a transfer, and the place of its destination among the accounts. -/
def transferOf (ix : CompiledInstruction) : Decoded (Option (Nat × Nat)) :=
  if ix.data = [] then pure none
  else do
    let disc ← Account.index ix.data 0
    if disc = transferDisc ∧ 9 ≤ ix.data.length ∧ 3 ≤ ix.accounts.length then do
      let amount ← Account.sliceU64 ix.data 1
      pure (some (amount, 1))
    else if disc = transferCheckedDisc ∧ 9 ≤ ix.data.length ∧ 4 ≤ ix.accounts.length then do
      let amount ← Account.sliceU64 ix.data 1
      pure (some (amount, 2))
    else pure none

/-- Strategy 1, on one instruction. -/
def onTransfer (keys : List Pubkey) (state : Tracked) (ix : CompiledInstruction) :
    Decoded Tracked :=
  match keys[ix.programIdIndex.toNat]? with
  | none => pure state
  | some pid =>
      if pid ≠ tokenProgramId ∧ pid ≠ token2022 then pure state
      else do
        match ← transferOf ix with
        | none => pure state
        | some (amount, dest) =>
            if amount = 0 then pure state
            else
              let counted : Tracked := { state with tracker := { state.tracker with
                transfersFound := wrap 64 (state.tracker.transfersFound + 1) } }
              pure (applyEnd keys ix.accounts dest amount true
                (applyEnd keys ix.accounts 0 amount false counted))

def processTransaction (now : Instant) (state : Tracked) (tx : TxMessage) : Decoded Tracked := do
  let scanned : Tracked := { state with tracker :=
    { state.tracker with txsScanned := wrap 64 (state.tracker.txsScanned + 1) } }
  let simulated ← tx.instructions.foldlM (onSwap now tx.accountKeys) scanned
  tx.instructions.foldlM (onTransfer tx.accountKeys) simulated

/-! Nothing in a transaction stops the tracker: every index is looked up, and every
slice stands behind a test of the length. -/

open Decoded Account

theorem returns_swapAmount (pid : Pubkey) (data : List UInt8) : Returns (swapAmount pid data) := by
  rw [swapAmount]
  split
  · split
    · exact returns_pure _
    · next long =>
        apply returns_bind _ _ (returns_index data 0 (by omega))
        intro disc
        split
        · exact returns_map _ _ (returns_sliceU64 data 1 (by omega))
        · exact returns_pure _
  · split
    · next long => exact returns_map _ _ (returns_sliceU64 data 8 long.2)
    · exact returns_pure _

theorem returns_onSwap (now : Instant) (keys : List Pubkey) (state : Tracked)
    (ix : CompiledInstruction) : Returns (onSwap now keys state ix) := by
  rw [onSwap]
  split
  · exact returns_pure _
  · next pid _ =>
      split
      · apply returns_bind _ _ (returns_swapAmount pid ix.data)
        intro amount
        cases amount with
        | none => exact returns_pure _
        | some amountIn =>
            dsimp only
            split
            · exact returns_pure _
            · exact returns_pure _
      · split
        · split
          · exact returns_pure _
          · exact returns_pure _
        · exact returns_pure _

theorem returns_transferOf (ix : CompiledInstruction) : Returns (transferOf ix) := by
  rw [transferOf]
  split
  · exact returns_pure _
  · next filled =>
      apply returns_bind _ _ (returns_index ix.data 0 (List.length_pos_iff.mpr filled))
      intro disc
      split
      · next plain =>
          apply returns_bind _ _ (returns_sliceU64 ix.data 1 plain.2.1)
          intro amount
          exact returns_pure _
      · split
        · next checked =>
            apply returns_bind _ _ (returns_sliceU64 ix.data 1 checked.2.1)
            intro amount
            exact returns_pure _
        · exact returns_pure _

theorem returns_onTransfer (keys : List Pubkey) (state : Tracked) (ix : CompiledInstruction) :
    Returns (onTransfer keys state ix) := by
  rw [onTransfer]
  split
  · exact returns_pure _
  · split
    · exact returns_pure _
    · apply returns_bind _ _ (returns_transferOf ix)
      intro found
      cases found with
      | none => exact returns_pure _
      | some transfer =>
          dsimp only
          split
          · exact returns_pure _
          · exact returns_pure _

theorem returns_processTransaction (now : Instant) (state : Tracked) (tx : TxMessage) :
    Returns (processTransaction now state tx) := by
  apply returns_bind
  · exact returns_foldlM _ _ _ (returns_onSwap now tx.accountKeys)
  · intro simulated
    exact returns_foldlM _ _ _ (returns_onTransfer tx.accountKeys)

end Tracked

namespace ShredDeltaTracker

def identifyDex (programId : Pubkey) : Option String :=
  if programId = DexPrograms.raydiumAmmV4 then some "raydium_v4"
  else if programId = DexPrograms.orcaWhirlpool then some "orca"
  else if programId = DexPrograms.meteoraDlmm then some "meteora"
  else if programId = DexPrograms.pumpswap then some "pumpswap"
  else none

def noteActivity (cache : PoolStateCache) (slot : Nat) (tracker : ShredDeltaTracker) (dex : String)
    (pool : Pubkey) : ShredDeltaTracker :=
  let seen := (tracker.poolSwapCounts.get pool).getD 0
  let counted := { tracker with
    poolSwapCounts := tracker.poolSwapCounts.insert pool (wrap 64 (seen + 1)) }
  if (cache.get pool).isSome ∨ (counted.unknownPools.get pool).isSome then counted
  else { counted with unknownPools := counted.unknownPools.insert pool (dex, slot) }

/-- One instruction of `detect_dex_activity`. The first account is taken for the pool. -/
def onActivity (cache : PoolStateCache) (slot : Nat) (keys : List Pubkey)
    (tracker : ShredDeltaTracker) (ix : CompiledInstruction) : ShredDeltaTracker :=
  match (keys[ix.programIdIndex.toNat]?).bind identifyDex, accountAt 0 ix.accounts keys with
  | some dex, some pool => noteActivity cache slot tracker dex pool
  | _, _ => tracker

def detectDexActivity (cache : PoolStateCache) (slot : Nat) (tracker : ShredDeltaTracker)
    (tx : TxMessage) : ShredDeltaTracker :=
  tx.instructions.foldl (onActivity cache slot tx.accountKeys) tracker

/-- One fetched vault balance. -/
def applyVaultBalanceTo (tracker : ShredDeltaTracker) (now : Instant) (cache : PoolStateCache)
    (fetched : Pubkey × Nat) : PoolStateCache :=
  match tracker.vaultToPool.get fetched.1 with
  | none => cache
  | some (poolAddr, isVaultA) =>
      cache.getMut poolAddr (fun pool => pool.applyVaultBalance now isVaultA fetched.2)

def applyVaultBalances (tracker : ShredDeltaTracker) (now : Instant) (cache : PoolStateCache)
    (balances : List (Pubkey × Nat)) : PoolStateCache :=
  let applied := balances.foldl (applyVaultBalanceTo tracker now) cache
  if balances = [] then applied else applied.bumpSwapGeneration

end ShredDeltaTracker

end Helios
