import Helios.DeltaTracker
import Helios.ReserveSides

/-! The total of a reserve against the two vault balances it is made of. The hydrator
writes a balance and sums; every other writer sets or moves the total alone. -/

namespace Helios

open Machine PoolHydrator

/-- A swap delta moves the polled reserves, and at most the tick of a Whirlpool. -/
theorem DexPool.applySwapDelta_eq {F : Type} [FloatArith F] (powf : F → F → F) (pool : DexPool)
    (now : Instant) (amountIn amountOut : Nat) (aToB : Bool) :
    ∃ orca, pool.applySwapDelta powf now amountIn amountOut aToB = { pool with
      reserveA := if aToB then saturatingAdd64 pool.reserveA amountIn else pool.reserveA - amountOut
      reserveB := if aToB then pool.reserveB - amountOut else saturatingAdd64 pool.reserveB amountIn
      orcaMeta := orca, lastUpdated := now } := by
  refine ⟨(pool.applySwapDelta powf now amountIn amountOut aToB).orcaMeta, ?_⟩
  by_cases whirlpool : pool.dexType = .orcaWhirlpool
  · cases aToB with
    | true => simp [DexPool.applySwapDelta, whirlpool]
    | false => simp [DexPool.applySwapDelta, whirlpool]
  · cases aToB with
    | true => simp [DexPool.applySwapDelta, whirlpool]
    | false => simp [DexPool.applySwapDelta, whirlpool]

/-- The early exit on an equal balance is the write of it, as far as the pools go. -/
theorem PoolStateCache.get_updateReserveByVault (cache : PoolStateCache) (now : Instant)
    (address : Pubkey) (isVaultA : Bool) (balance : Nat) (key : Pubkey) :
    (cache.updateReserveByVault now address isVaultA balance).1.get key =
      (cache.getMut address (fun pool => pool.updateReserveByVault now isVaultA balance)).get key := by
  rw [PoolStateCache.updateReserveByVault, PoolStateCache.get_getMut]
  cases found : cache.get address with
  | none =>
      dsimp only
      split
      · next own => rw [own, found, Option.map_none]
      · rfl
  | some held =>
      dsimp only
      by_cases unchanged : (if isVaultA then held.reserveA else held.reserveB) = balance
      · have idle : held.updateReserveByVault now isVaultA balance = held := if_pos unchanged
        rw [if_pos unchanged]
        split
        · next own => rw [own, found, Option.map_some, idle]
        · rfl
      · have written := cache.get_getMut address key
          (fun pool => pool.updateReserveByVault now isVaultA balance)
        rw [found] at written
        rw [if_neg unchanged]
        exact written

namespace PoolHydrator

/-- `AccountCache::vault_balance`. -/
def vaultBalance (accounts : HashMap Pubkey Account) (key : Pubkey) : Nat :=
  ((HashMap.get accounts key).bind tokenAmount).getD 0

/-- The rows of the pools file, each vault by itself: one that does not parse leaves the other. -/
def looseClaims (mapped : List MappedPool) : List (Pubkey × VaultType) :=
  mapped.flatMap (fun entry =>
    entry.poolId.toList.flatMap (fun pool =>
      entry.vaultA.toList.flatMap (fun vault => claim vault (.poolA pool)) ++
        entry.vaultB.toList.flatMap (fun vault => claim vault (.poolB pool))))

/-- The map of vaults that `refresh_vaults_from_cache` collects. -/
def cachedVaults (mapped : List MappedPool) (cache : PoolStateCache) : HashMap Pubkey VaultType :=
  (looseClaims mapped ++ (HashMap.values cache.inner).flatMap poolClaims).foldl
    (fun vaults (key, vault) => vaults.insert key vault) HashMap.empty

def walked (vaults : HashMap Pubkey VaultType) : List (Pubkey × VaultType) :=
  vaults.entries.map (fun entry => (entry.1, entry.2))

/-- One vault of `refresh_vaults_from_cache`, with the count of updates. -/
def refreshFromCache (accounts : HashMap Pubkey Account) (now : Instant)
    (state : PoolStateCache × Nat) (vault : Pubkey × VaultType) : PoolStateCache × Nat :=
  let balance := vaultBalance accounts vault.1
  if balance = 0 then state
  else (setVaultBalance now state.1 balance vault.2,
    if (state.1.get (ReserveSides.poolOf vault.2)).isSome then state.2 + 1 else state.2)

/-- The vaults in the order the map is walked in. -/
def refreshVaults (accounts : HashMap Pubkey Account) (now : Instant)
    (vaults : List (Pubkey × VaultType)) (cache : PoolStateCache) : PoolStateCache × Nat :=
  let (refreshed, updated) := vaults.foldl (refreshFromCache accounts now) (cache, 0)
  (if 0 < updated then refreshed.bumpSwapGeneration else refreshed, updated)

def refreshVaultsFromCache (accounts : HashMap Pubkey Account) (now : Instant)
    (mapped : List MappedPool) (cache : PoolStateCache) : PoolStateCache × Nat :=
  refreshVaults accounts now (walked (cachedVaults mapped cache)) cache

end PoolHydrator

namespace ReserveParts

open ReserveSides Runs

/-- A write of one reserve, under the lock of one pool. -/
inductive Write where
  /-- The hydrator's, from an RPC reply or from the account cache. -/
  | balanceRead (vault : VaultType) (amount : Nat)
  /-- `update_reserve_a` and `update_reserve_b`; the targeted refresh of a PumpSwap pool
  writes the same. -/
  | reserveSet (pool : Pubkey) (isVaultA : Bool) (amount : Nat)
  /-- `update_reserve_by_vault`. -/
  | notified (pool : Pubkey) (isVaultA : Bool) (balance : Nat)
  /-- One balance of `apply_vault_balances`. -/
  | fetched (pool : Pubkey) (isVaultA : Bool) (balance : Nat)
  | swapped (pool : Pubkey) (amountIn amountOut : Nat) (aToB : Bool)

section Writes

variable {F : Type} [FloatArith F] (powf : F → F → F)

def applyWrite (cache : PoolStateCache) : Instant × Write → PoolStateCache
  | (now, .balanceRead vault amount) => setVaultBalance now cache amount vault
  | (now, .reserveSet pool isVaultA amount) =>
      if isVaultA then cache.updateReserveA now pool amount
      else cache.updateReserveB now pool amount
  | (now, .notified pool isVaultA balance) =>
      (cache.updateReserveByVault now pool isVaultA balance).1
  | (now, .fetched pool isVaultA balance) =>
      cache.getMut pool (fun held => held.applyVaultBalance now isVaultA balance)
  | (now, .swapped pool amountIn amountOut aToB) =>
      cache.applySwapDelta powf now pool amountIn amountOut aToB

def setReserve (a isVaultA : Bool) (amount : Nat) (side : Side) : Side :=
  if isVaultA = a then { side with reserve := amount } else side

def moveReserve (a : Bool) (amountIn amountOut : Nat) (aToB : Bool) (side : Side) : Side :=
  if aToB = a then { side with reserve := saturatingAdd64 side.reserve amountIn }
  else { side with reserve := side.reserve - amountOut }

/-- What a write does to one side of one pool. -/
def onSide (key : Pubkey) (a : Bool) (side : Side) : Write → Side
  | .balanceRead vault amount =>
      if poolOf vault = key ∧ isA vault = a then side.apply ⟨default, vault, default, amount⟩
      else side
  | .reserveSet pool isVaultA amount =>
      if pool = key then setReserve a isVaultA amount side else side
  | .notified pool isVaultA balance =>
      if pool = key then setReserve a isVaultA balance side else side
  | .fetched pool isVaultA balance =>
      if pool = key then setReserve a isVaultA balance side else side
  | .swapped pool amountIn amountOut aToB =>
      if pool = key then moveReserve a amountIn amountOut aToB side else side

theorem side_getMut (cache : PoolStateCache) (key address : Pubkey) (a : Bool)
    (change : DexPool → DexPool) (effect : Side → Side)
    (sides : ∀ pool, sideOf a (change pool) = effect (sideOf a pool)) :
    ((cache.getMut address change).get key).map (sideOf a) =
      ((cache.get key).map (sideOf a)).map (fun side =>
        if address = key then effect side else side) := by
  rw [PoolStateCache.get_getMut, Option.map_map]
  by_cases own : key = address
  · rw [if_pos own, Option.map_map, ← own]
    apply Option.map_congr
    intro held _
    simp [sides]
  · rw [if_neg own]
    apply Option.map_congr
    intro held _
    simp [Ne.symm own]

theorem sideOf_updateReserve (pool : DexPool) (now : Instant) (a isVaultA : Bool) (amount : Nat) :
    sideOf a (if isVaultA then pool.updateReserveA now amount else pool.updateReserveB now amount) =
      setReserve a isVaultA amount (sideOf a pool) := by
  cases isVaultA with
  | true => cases a <;> rfl
  | false => cases a <;> rfl

theorem sideOf_updateReserveByVault (pool : DexPool) (now : Instant) (a isVaultA : Bool)
    (balance : Nat) :
    sideOf a (pool.updateReserveByVault now isVaultA balance) =
      setReserve a isVaultA balance (sideOf a pool) := by
  by_cases same : (if isVaultA then pool.reserveA else pool.reserveB) = balance
  · have idle : pool.updateReserveByVault now isVaultA balance = pool := if_pos same
    rw [idle, ← same]
    cases isVaultA with
    | true => cases a <;> rfl
    | false => cases a <;> rfl
  · have written : pool.updateReserveByVault now isVaultA balance =
        if isVaultA then pool.updateReserveA now balance else pool.updateReserveB now balance :=
      if_neg same
    rw [written]
    exact sideOf_updateReserve pool now a isVaultA balance

theorem sideOf_applyVaultBalance (pool : DexPool) (now : Instant) (a isVaultA : Bool)
    (balance : Nat) :
    sideOf a (pool.applyVaultBalance now isVaultA balance) =
      setReserve a isVaultA balance (sideOf a pool) := by
  cases isVaultA with
  | true => cases a <;> rfl
  | false => cases a <;> rfl

theorem sideOf_applySwapDelta (pool : DexPool) (now : Instant) (a aToB : Bool)
    (amountIn amountOut : Nat) :
    sideOf a (pool.applySwapDelta powf now amountIn amountOut aToB) =
      moveReserve a amountIn amountOut aToB (sideOf a pool) := by
  rcases pool.applySwapDelta_eq powf now amountIn amountOut aToB with ⟨orca, same⟩
  rw [same]
  cases aToB with
  | true => cases a <;> rfl
  | false => cases a <;> rfl

/-- Each side of a pool is a state of its own, moved by the writes alone. -/
theorem side_applyWrite (cache : PoolStateCache) (input : Instant × Write) (key : Pubkey)
    (a : Bool) :
    ((applyWrite powf cache input).get key).map (sideOf a) =
      ((cache.get key).map (sideOf a)).map (fun side => onSide key a side input.2) := by
  rcases input with ⟨now, write⟩
  cases write with
  | balanceRead vault amount =>
      rw [Option.map_map]
      exact side_setVaultBalance now cache ⟨default, vault, default, amount⟩ key a
  | reserveSet pool isVaultA amount =>
      have same : applyWrite powf cache (now, .reserveSet pool isVaultA amount) =
          cache.getMut pool (fun held => if isVaultA then held.updateReserveA now amount
            else held.updateReserveB now amount) := by
        cases isVaultA with
        | true => rfl
        | false => rfl
      rw [same]
      exact side_getMut cache key pool a _ (setReserve a isVaultA amount)
        (fun held => sideOf_updateReserve held now a isVaultA amount)
  | notified pool isVaultA balance =>
      have same := cache.get_updateReserveByVault now pool isVaultA balance key
      rw [applyWrite, same]
      exact side_getMut cache key pool a _ (setReserve a isVaultA balance)
        (fun held => sideOf_updateReserveByVault held now a isVaultA balance)
  | fetched pool isVaultA balance =>
      exact side_getMut cache key pool a _ (setReserve a isVaultA balance)
        (fun held => sideOf_applyVaultBalance held now a isVaultA balance)
  | swapped pool amountIn amountOut aToB =>
      exact side_getMut cache key pool a _ (moveReserve a amountIn amountOut aToB)
        (fun held => sideOf_applySwapDelta powf held now a aToB amountIn amountOut)

/-! The whole operations are runs of such writes. -/

/-- What an account brought in by the last round of a hydration writes. -/
def writeOf (now : Instant) (vaults : HashMap Pubkey VaultType) (received : Pubkey × Account) :
    Option (Instant × Write) :=
  (creditOf vaults received).map (fun credit => (now, .balanceRead credit.role credit.amount))

theorem refreshBalance_eq (now : Instant) (vaults : HashMap Pubkey VaultType)
    (cache : PoolStateCache) (received : Pubkey × Account) :
    refreshBalance now vaults cache received =
      run (applyWrite powf) cache (writeOf now vaults received).toList := by
  rw [refreshBalance, writeOf, creditOf]
  cases tokenAmount received.2 with
  | none => rfl
  | some amount =>
      cases HashMap.get vaults received.1 with
      | none => rfl
      | some role => rfl

/-- A fold whose steps are runs is a run. -/
theorem foldl_eq_run {A : Type} (step : PoolStateCache → A → PoolStateCache)
    (writes : A → List (Instant × Write))
    (each : ∀ cache input, step cache input = run (applyWrite powf) cache (writes input))
    (cache : PoolStateCache) (inputs : List A) :
    inputs.foldl step cache = run (applyWrite powf) cache (inputs.flatMap writes) := by
  induction inputs generalizing cache with
  | nil => rfl
  | cons input rest ih => rw [List.foldl_cons, each, ih, List.flatMap_cons, run_append]

theorem refreshBalances_eq (network : Network) (now : Instant) (mapped : List MappedPool)
    (cache : PoolStateCache) :
    refreshBalances network now mapped cache =
      run (applyWrite powf) cache ((vaultAccounts network mapped cache).flatMap (fun received =>
        (writeOf now (allVaults mapped cache) received).toList)) :=
  foldl_eq_run powf _ _ (refreshBalance_eq powf now (allVaults mapped cache)) cache _

/-- A balance of zero counts as unknown. -/
def cachedWrite (accounts : HashMap Pubkey Account) (now : Instant) (vault : Pubkey × VaultType) :
    List (Instant × Write) :=
  if vaultBalance accounts vault.1 = 0 then []
  else [(now, .balanceRead vault.2 (vaultBalance accounts vault.1))]

theorem refreshVaults_get (accounts : HashMap Pubkey Account) (now : Instant)
    (vaults : List (Pubkey × VaultType)) (cache : PoolStateCache) (key : Pubkey) :
    (refreshVaults accounts now vaults cache).1.get key =
      (run (applyWrite powf) cache (vaults.flatMap (cachedWrite accounts now))).get key := by
  have folded : ∀ (vaults : List (Pubkey × VaultType)) (state : PoolStateCache × Nat),
      (vaults.foldl (refreshFromCache accounts now) state).1 =
        run (applyWrite powf) state.1 (vaults.flatMap (cachedWrite accounts now)) := by
    intro vaults
    induction vaults with
    | nil => intro state; rfl
    | cons vault rest ih =>
        intro state
        rw [List.foldl_cons, ih, List.flatMap_cons, run_append, refreshFromCache, cachedWrite]
        split
        · rfl
        · rfl
  rw [← folded vaults (cache, 0), refreshVaults]
  dsimp only
  split
  · rfl
  · rfl

theorem refreshVaultsFromCache_get (accounts : HashMap Pubkey Account) (now : Instant)
    (mapped : List MappedPool) (cache : PoolStateCache) (key : Pubkey) :
    (refreshVaultsFromCache accounts now mapped cache).1.get key =
      (run (applyWrite powf) cache ((walked (cachedVaults mapped cache)).flatMap
        (cachedWrite accounts now))).get key :=
  refreshVaults_get powf accounts now _ cache key

def fetchedWrite (tracker : ShredDeltaTracker) (now : Instant) (balance : Pubkey × Nat) :
    List (Instant × Write) :=
  ((tracker.vaultToPool.get balance.1).map (fun (pool, isVaultA) =>
    (now, Write.fetched pool isVaultA balance.2))).toList

theorem applyVaultBalances_get (tracker : ShredDeltaTracker) (now : Instant)
    (cache : PoolStateCache) (balances : List (Pubkey × Nat)) (key : Pubkey) :
    (tracker.applyVaultBalances now cache balances).get key =
      (run (applyWrite powf) cache (balances.flatMap (fetchedWrite tracker now))).get key := by
  have folded := foldl_eq_run powf (tracker.applyVaultBalanceTo now) (fetchedWrite tracker now)
    (by
      intro held balance
      rw [ShredDeltaTracker.applyVaultBalanceTo, fetchedWrite]
      cases tracker.vaultToPool.get balance.1 with
      | none => rfl
      | some entry => rfl) cache balances
  rw [ShredDeltaTracker.applyVaultBalances, folded]
  split
  · rfl
  · rfl

/-! The law: the total of a side is the sum of its two balances. -/

/-- Saturating, as the law asks for it. -/
def Side.Decomposed (side : Side) : Prop :=
  side.reserve = saturatingAdd64 side.poolVault side.marketVault

structure Decomposed (pool : DexPool) : Prop where
  sideA : Side.Decomposed (sideOf true pool)
  sideB : Side.Decomposed (sideOf false pool)

/-- A side whose balances are `u64`. -/
structure SideBelow (side : Side) : Prop where
  poolVault : side.poolVault < 2 ^ 64
  marketVault : side.marketVault < 2 ^ 64

def WriteBelow : Write → Prop
  | .balanceRead _ amount => amount < 2 ^ 64
  | _ => True

/-- The balance of a side that a read of a vault leaves as it is. -/
def otherBalance (side : Side) : VaultType → Nat
  | .poolA _ => side.marketVault
  | .poolB _ => side.marketVault
  | .marketA _ => side.poolVault
  | .marketB _ => side.poolVault

/-- A write that leaves a decomposed side decomposed: a balance read whose sum fits, a
total set to what it was, or a swap that moves nothing. -/
def KeepsSide (key : Pubkey) (a : Bool) (side : Side) : Write → Prop
  | .balanceRead vault amount =>
      poolOf vault = key → isA vault = a → otherBalance side vault + amount < 2 ^ 64
  | .reserveSet pool isVaultA amount => pool = key → isVaultA = a → amount = side.reserve
  | .notified pool isVaultA balance => pool = key → isVaultA = a → balance = side.reserve
  | .fetched pool isVaultA balance => pool = key → isVaultA = a → balance = side.reserve
  | .swapped pool amountIn amountOut aToB =>
      pool = key →
        if aToB = a then amountIn = 0 ∨ side.reserve = u64Max
        else amountOut = 0 ∨ side.reserve = 0

structure Keeps (key : Pubkey) (pool : DexPool) (write : Write) : Prop where
  sideA : KeepsSide key true (sideOf true pool) write
  sideB : KeepsSide key false (sideOf false pool) write

theorem wrap_eq_saturating_iff (a b : Nat) (small : a < 2 ^ 64) (other : b < 2 ^ 64) :
    wrap 64 (a + b) = saturatingAdd64 a b ↔ a + b < 2 ^ 64 := by
  constructor
  · intro same
    by_contra past
    have wrapped : wrap 64 (a + b) = a + b - 2 ^ 64 := by
      rw [wrap, Nat.mod_eq_sub_mod (by omega), Nat.mod_eq_of_lt (by omega)]
    have capped : saturatingAdd64 a b = u64Max := min_eq_right (by rw [u64Max]; omega)
    rw [wrapped, capped, u64Max] at same
    omega
  · intro fits
    rw [wrap_of_lt 64 _ fits]
    exact (min_eq_left (by rw [u64Max]; omega)).symm

theorem setReserve_decomposed_iff (a isVaultA : Bool) (amount : Nat) (side : Side)
    (start : Side.Decomposed side) :
    Side.Decomposed (setReserve a isVaultA amount side) ↔ (isVaultA = a → amount = side.reserve) := by
  rw [setReserve]
  split
  · next own =>
      rw [Side.Decomposed, start]
      exact ⟨fun same _ => same, fun same => same own⟩
  · next other => exact ⟨fun _ own => absurd own other, fun _ => start⟩

theorem moveReserve_decomposed_iff (a aToB : Bool) (amountIn amountOut : Nat) (side : Side)
    (start : Side.Decomposed side) :
    Side.Decomposed (moveReserve a amountIn amountOut aToB side) ↔
      if aToB = a then amountIn = 0 ∨ side.reserve = u64Max
      else amountOut = 0 ∨ side.reserve = 0 := by
  have capped : side.reserve ≤ u64Max := by
    rw [start]
    exact min_le_right _ _
  rw [moveReserve]
  split
  · change saturatingAdd64 side.reserve amountIn =
      saturatingAdd64 side.poolVault side.marketVault ↔ _
    rw [← start, saturatingAdd64]
    omega
  · change side.reserve - amountOut = saturatingAdd64 side.poolVault side.marketVault ↔ _
    rw [← start]
    omega

/-- One write on one side. -/
theorem onSide_decomposed_iff (key : Pubkey) (a : Bool) (side : Side) (write : Write)
    (below : SideBelow side) (small : WriteBelow write) (start : Side.Decomposed side) :
    Side.Decomposed (onSide key a side write) ↔ KeepsSide key a side write := by
  cases write with
  | balanceRead vault amount =>
      rw [onSide, KeepsSide]
      split
      · next own =>
          have fits := wrap_eq_saturating_iff (otherBalance side vault) amount
            (by cases vault <;> first | exact below.marketVault | exact below.poolVault) small
          have sum : Side.Decomposed (side.apply ⟨default, vault, default, amount⟩) ↔
              wrap 64 (otherBalance side vault + amount) =
                saturatingAdd64 (otherBalance side vault) amount := by
            cases vault <;>
              simp [Side.Decomposed, Side.apply, otherBalance, saturatingAdd64, Nat.add_comm]
          rw [sum, fits]
          exact ⟨fun bound _ _ => bound, fun bound => bound own.1 own.2⟩
      · next other =>
          exact ⟨fun _ own side => absurd ⟨own, side⟩ other, fun _ => start⟩
  | reserveSet pool isVaultA amount =>
      rw [onSide, KeepsSide]
      split
      · next own =>
          rw [setReserve_decomposed_iff a isVaultA amount side start]
          exact ⟨fun same _ => same, fun same => same own⟩
      · next other => exact ⟨fun _ own => absurd own other, fun _ => start⟩
  | notified pool isVaultA balance =>
      rw [onSide, KeepsSide]
      split
      · next own =>
          rw [setReserve_decomposed_iff a isVaultA balance side start]
          exact ⟨fun same _ => same, fun same => same own⟩
      · next other => exact ⟨fun _ own => absurd own other, fun _ => start⟩
  | fetched pool isVaultA balance =>
      rw [onSide, KeepsSide]
      split
      · next own =>
          rw [setReserve_decomposed_iff a isVaultA balance side start]
          exact ⟨fun same _ => same, fun same => same own⟩
      · next other => exact ⟨fun _ own => absurd own other, fun _ => start⟩
  | swapped pool amountIn amountOut aToB =>
      rw [onSide, KeepsSide]
      split
      · next own =>
          rw [moveReserve_decomposed_iff a aToB amountIn amountOut side start]
          exact ⟨fun same _ => same, fun same => same own⟩
      · next other => exact ⟨fun _ own => absurd own other, fun _ => start⟩

/-- The law and the condition, for whatever pool stands under the key. -/
def DecomposedAt (key : Pubkey) (cache : PoolStateCache) : Prop :=
  ∀ pool, cache.get key = some pool → Decomposed pool

def KeepsAt (key : Pubkey) (cache : PoolStateCache) (write : Write) : Prop :=
  ∀ pool, cache.get key = some pool → Keeps key pool write

def BelowAt (key : Pubkey) (cache : PoolStateCache) : Prop :=
  ∀ pool, cache.get key = some pool → SideBelow (sideOf true pool) ∧ SideBelow (sideOf false pool)

/-- Both sides of the pool under a key, after a write. -/
theorem get_applyWrite (cache : PoolStateCache) (input : Instant × Write) (key : Pubkey)
    (after : DexPool) (found : (applyWrite powf cache input).get key = some after) :
    ∃ pool, cache.get key = some pool ∧
      ∀ a, sideOf a after = onSide key a (sideOf a pool) input.2 := by
  cases held : cache.get key with
  | none =>
      have side := side_applyWrite powf cache input key true
      rw [found, held] at side
      cases side
  | some pool =>
      refine ⟨pool, rfl, ?_⟩
      intro a
      have side := side_applyWrite powf cache input key a
      rw [found, held] at side
      exact Option.some.inj side

theorem applyWrite_kept (cache : PoolStateCache) (input : Instant × Write) (key : Pubkey)
    (pool : DexPool) (held : cache.get key = some pool) :
    ∃ after, (applyWrite powf cache input).get key = some after := by
  have side := side_applyWrite powf cache input key true
  rw [held] at side
  cases found : (applyWrite powf cache input).get key with
  | none =>
      rw [found] at side
      cases side
  | some after => exact ⟨after, rfl⟩

theorem onSide_below (key : Pubkey) (a : Bool) (side : Side) (write : Write)
    (below : SideBelow side) (small : WriteBelow write) : SideBelow (onSide key a side write) := by
  cases write with
  | balanceRead vault amount =>
      rw [onSide]
      split
      · cases vault with
        | poolA pool => exact ⟨small, below.marketVault⟩
        | poolB pool => exact ⟨small, below.marketVault⟩
        | marketA pool => exact ⟨below.poolVault, small⟩
        | marketB pool => exact ⟨below.poolVault, small⟩
      · exact below
  | reserveSet pool isVaultA amount =>
      rw [onSide, setReserve]
      split_ifs <;> exact ⟨below.poolVault, below.marketVault⟩
  | notified pool isVaultA balance =>
      rw [onSide, setReserve]
      split_ifs <;> exact ⟨below.poolVault, below.marketVault⟩
  | fetched pool isVaultA balance =>
      rw [onSide, setReserve]
      split_ifs <;> exact ⟨below.poolVault, below.marketVault⟩
  | swapped pool amountIn amountOut aToB =>
      rw [onSide, moveReserve]
      split_ifs <;> exact ⟨below.poolVault, below.marketVault⟩

theorem belowAt_applyWrite (key : Pubkey) (cache : PoolStateCache) (input : Instant × Write)
    (below : BelowAt key cache) (small : WriteBelow input.2) :
    BelowAt key (applyWrite powf cache input) := by
  intro after found
  rcases get_applyWrite powf cache input key after found with ⟨pool, held, sides⟩
  rcases below pool held with ⟨belowA, belowB⟩
  rw [sides true, sides false]
  exact ⟨onSide_below key true _ input.2 belowA small, onSide_below key false _ input.2 belowB small⟩

/-- One write keeps the law exactly if its condition holds. -/
theorem decomposedAt_applyWrite_iff (key : Pubkey) (cache : PoolStateCache)
    (input : Instant × Write) (below : BelowAt key cache) (small : WriteBelow input.2)
    (start : DecomposedAt key cache) :
    DecomposedAt key (applyWrite powf cache input) ↔ KeepsAt key cache input.2 := by
  constructor
  · intro law pool held
    rcases applyWrite_kept powf cache input key pool held with ⟨after, found⟩
    rcases get_applyWrite powf cache input key after found with ⟨same, again, sides⟩
    rw [held] at again
    cases again
    have whole := law after found
    have sideA := whole.sideA
    have sideB := whole.sideB
    rw [sides true] at sideA
    rw [sides false] at sideB
    exact ⟨(onSide_decomposed_iff key true _ input.2 (below pool held).1 small
      (start pool held).sideA).mp sideA,
      (onSide_decomposed_iff key false _ input.2 (below pool held).2 small
        (start pool held).sideB).mp sideB⟩
  · intro keeps after found
    rcases get_applyWrite powf cache input key after found with ⟨pool, held, sides⟩
    have kept := keeps pool held
    constructor
    · rw [sides true]
      exact (onSide_decomposed_iff key true _ input.2 (below pool held).1 small
        (start pool held).sideA).mpr kept.sideA
    · rw [sides false]
      exact (onSide_decomposed_iff key false _ input.2 (below pool held).2 small
        (start pool held).sideB).mpr kept.sideB

/-- Over any run of the writers, in any order: the law holds after every write exactly
if every write meets its condition. -/
theorem decomposed_throughout_iff (key : Pubkey) (cache : PoolStateCache)
    (writes : List (Instant × Write)) (below : BelowAt key cache)
    (small : ∀ input ∈ writes, WriteBelow input.2) (start : DecomposedAt key cache) :
    (∀ pair ∈ trace (applyWrite powf) cache writes,
        DecomposedAt key (applyWrite powf pair.1 pair.2)) ↔
      ∀ pair ∈ trace (applyWrite powf) cache writes, KeepsAt key pair.1 pair.2.2 := by
  induction writes generalizing cache with
  | nil => simp [trace]
  | cons input rest ih =>
      have here := decomposedAt_applyWrite_iff powf key cache input below
        (small input List.mem_cons_self) start
      have later := ih (applyWrite powf cache input)
        (belowAt_applyWrite powf key cache input below (small input List.mem_cons_self))
        (fun other member => small other (List.mem_cons_of_mem _ member))
      simp only [trace, List.forall_mem_cons]
      constructor
      · rintro ⟨first, others⟩
        exact ⟨here.mp first, (later first).mp others⟩
      · rintro ⟨first, others⟩
        have kept := here.mpr first
        exact ⟨kept, (later kept).mpr others⟩

end Writes

/-- Hydrated: 1000 in the pool's vault and 500 in the market's, on both sides. -/
def hydratedPool : DexPool :=
  { poolAddress := .ofNat 1, dexType := .raydiumAmmV4, tokenA := .ofNat 2, tokenB := .ofNat 3
    decimalsA := 9, decimalsB := 9, reserveA := 1500, reserveB := 1500
    reserveAOptimistic := 0, reserveBOptimistic := 0, lastShredUpdate := 0
    poolVaultABalance := 1000, poolVaultBBalance := 1000
    marketVaultABalance := 500, marketVaultBBalance := 500, lastUpdated := 0, feeBps := 25
    raydiumMeta := none, orcaMeta := none, meteoraMeta := none }

def hydratedCache : PoolStateCache := PoolStateCache.new.upsert hydratedPool

theorem hydratedCache_get (pool : DexPool) (held : hydratedCache.get (.ofNat 1) = some pool) :
    pool = hydratedPool := by
  have found : hydratedCache.get (.ofNat 1) = some hydratedPool := by decide +kernel
  rw [found] at held
  exact (Option.some.inj held).symm

theorem hydratedCache_decomposed : DecomposedAt (.ofNat 1) hydratedCache := by
  intro pool held
  rw [hydratedCache_get pool held]
  exact ⟨rfl, rfl⟩

/-- The pool's vault A is notified at 1100, then the market's is read again. -/
def notifiedRun : List (Instant × Write) :=
  [(1, .notified (.ofNat 1) true 1100), (2, .balanceRead (.marketA (.ofNat 1)) 500)]

/-- The notification drops the market's 500, and the refresh after it brings back the
1000 that was notified away. -/
theorem notification_drops_market_part :
    DecomposedAt (.ofNat 1) hydratedCache ∧
      ¬ DecomposedAt (.ofNat 1)
        (run (applyWrite (fun base _ => base : ℚ → ℚ → ℚ)) hydratedCache (notifiedRun.take 1)) ∧
      ((run (applyWrite (fun base _ => base : ℚ → ℚ → ℚ)) hydratedCache
        notifiedRun).get (.ofNat 1)).map DexPool.reserveA = some 1500 := by
  refine ⟨hydratedCache_decomposed, ?_, by decide +kernel⟩
  intro law
  have found : (run (applyWrite (fun base _ => base : ℚ → ℚ → ℚ)) hydratedCache
      (notifiedRun.take 1)).get (.ofNat 1) =
        some { hydratedPool with reserveA := 1100, lastUpdated := 1 } := by decide +kernel
  have wrong : (1100 : Nat) = saturatingAdd64 1000 500 := (law _ found).sideA
  exact absurd wrong (by decide)

theorem decomposed_throughout_iff_hydrated :
    (∀ pair ∈ trace (applyWrite (fun base _ => base : ℚ → ℚ → ℚ)) hydratedCache notifiedRun,
        DecomposedAt (.ofNat 1)
          (applyWrite (fun base _ => base : ℚ → ℚ → ℚ) pair.1 pair.2)) ↔
      ∀ pair ∈ trace (applyWrite (fun base _ => base : ℚ → ℚ → ℚ)) hydratedCache notifiedRun,
        KeepsAt (.ofNat 1) pair.1 pair.2.2 := by
  apply decomposed_throughout_iff (fun base _ => base) (.ofNat 1) hydratedCache notifiedRun _ _
    hydratedCache_decomposed
  · intro pool held
    rw [hydratedCache_get pool held]
    exact ⟨⟨by decide, by decide⟩, ⟨by decide, by decide⟩⟩
  · intro input member
    simp only [notifiedRun, List.mem_cons, List.not_mem_nil, or_false] at member
    rcases member with rfl | rfl
    · trivial
    · simp [WriteBelow]

end ReserveParts

end Helios
