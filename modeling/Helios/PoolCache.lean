import Helios.PoolState
import Helios.Runs
import Mathlib.Data.Sym.Sym2

/-! The pool cache and its index by token pair. -/

namespace Helios

open Machine

structure PoolStateCache where
  inner : HashMap Pubkey DexPool
  swapGen : Nat
  pairIndex : HashMap (Pubkey × Pubkey) (List Pubkey)

def canonicalPair (a b : Pubkey) : Pubkey × Pubkey := if a < b then (a, b) else (b, a)

namespace PoolStateCache

def new : PoolStateCache := ⟨HashMap.empty, 0, HashMap.empty⟩

def bucket (cache : PoolStateCache) (pair : Pubkey × Pubkey) : List Pubkey :=
  (HashMap.get cache.pairIndex pair).getD []

def get (cache : PoolStateCache) (address : Pubkey) : Option DexPool :=
  HashMap.get cache.inner address

def bumpSwapGeneration (cache : PoolStateCache) : PoolStateCache :=
  { cache with swapGen := wrap 64 (cache.swapGen + 1) }

def upsert (cache : PoolStateCache) (pool : DexPool) : PoolStateCache :=
  let pair := canonicalPair pool.tokenA pool.tokenB
  let addr := pool.poolAddress
  { cache with
    inner := cache.inner.insert addr pool
    pairIndex := cache.pairIndex.insert pair
      ((cache.bucket pair).filter (fun a => decide (a ≠ addr)) ++ [addr]) }

def poolsForPair (cache : PoolStateCache) (tokenA tokenB : Pubkey) : List DexPool :=
  (cache.bucket (canonicalPair tokenA tokenB)).filterMap cache.get

def remove (cache : PoolStateCache) (address : Pubkey) : PoolStateCache :=
  { cache with inner := cache.inner.erase address }

/-- Every `inner.get_mut` of the source goes through this. -/
def getMut (cache : PoolStateCache) (address : Pubkey) (change : DexPool → DexPool) :
    PoolStateCache :=
  { cache with inner := HashMap.modify cache.inner address change }

def updateReserveA (cache : PoolStateCache) (now : Instant) (address : Pubkey)
    (amount : Nat) : PoolStateCache :=
  cache.getMut address (fun pool => pool.updateReserveA now amount)

def updateReserveB (cache : PoolStateCache) (now : Instant) (address : Pubkey)
    (amount : Nat) : PoolStateCache :=
  cache.getMut address (fun pool => pool.updateReserveB now amount)

def updateRaydiumMeta (cache : PoolStateCache) (address : Pubkey)
    (metadata : RaydiumMetadata) : PoolStateCache :=
  cache.getMut address (fun pool => { pool with raydiumMeta := some metadata })

def applySwapDelta {F : Type} [FloatArith F] (powf : F → F → F) (cache : PoolStateCache)
    (now : Instant) (poolAddr : Pubkey) (amountIn amountOut : Nat) (aToB : Bool) :
    PoolStateCache :=
  (cache.getMut poolAddr
    (fun pool => pool.applySwapDelta powf now amountIn amountOut aToB)).bumpSwapGeneration

def updateReserveByVault (cache : PoolStateCache) (now : Instant) (poolAddress : Pubkey)
    (isVaultA : Bool) (newBalance : Nat) : PoolStateCache × Bool :=
  match cache.get poolAddress with
  | none => (cache, false)
  | some pool =>
      if (if isVaultA then pool.reserveA else pool.reserveB) = newBalance then (cache, false)
      else
        ((cache.getMut poolAddress (fun pool =>
          pool.updateReserveByVault now isVaultA newBalance)).bumpSwapGeneration, true)

theorem get_getMut (cache : PoolStateCache) (address other : Pubkey) (change : DexPool → DexPool) :
    (cache.getMut address change).get other =
      if other = address then (cache.get address).map change else cache.get other :=
  HashMap.get_modify cache.inner address other change

/-- What a change does not touch stays as it is in every pool. -/
theorem map_get_getMut {γ : Type} (view : DexPool → γ) (cache : PoolStateCache)
    (address other : Pubkey) (change : DexPool → DexPool)
    (keeps : ∀ pool, cache.get address = some pool → view (change pool) = view pool) :
    ((cache.getMut address change).get other).map view = (cache.get other).map view := by
  rw [get_getMut]
  by_cases same : other = address
  · rw [if_pos same, same, Option.map_map]
    exact Option.map_congr (fun pool held => keeps pool held)
  · rw [if_neg same]

end PoolStateCache

end Helios
