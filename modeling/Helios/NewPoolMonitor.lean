import Helios.SignalProcessor

/-! The watch list of graduated tokens that have one pool. The scans for routes are
parameters: their routes are only passed on. -/

namespace Helios

structure WatchedToken where
  pumpswapPool : Pubkey
  graduationSlot : Nat
  graduatedAt : Instant
  baseReserve : Nat
  quoteReserve : Nat

/-- What a second pool of a watched token gives. -/
structure SecondPoolArbOpportunity (F : Type) where
  tokenMint : Pubkey
  pumpswapPool : Pubkey
  newPool : Pubkey
  newPoolDex : DexType
  timeSinceGraduation : Nat
  routes : List (RouteParams F)

abbrev NewPoolMonitor := HashMap Pubkey WatchedToken

namespace NewPoolMonitor

/-- 24 h in nanoseconds. -/
def watchTtl : Nat := 24 * 3600 * 10 ^ 9

def Expired (now : Instant) (watched : WatchedToken) : Prop := watchTtl < now - watched.graduatedAt

instance (now : Instant) (watched : WatchedToken) : Decidable (Expired now watched) := by
  unfold Expired
  infer_instance

/-- The entry of a graduated token, if the cache has no two pools of it already. -/
def graduationEntry (now : Instant) (cache : PoolStateCache) (tokenMint pumpswapPool : Pubkey)
    (slot : Nat) : Option WatchedToken :=
  let reserves := match cache.get pumpswapPool with
    | some pool => (pool.reserveA, pool.reserveB)
    | none => (0, 0)
  if 2 ≤ (cache.poolsForToken tokenMint).length then none
  else some ⟨pumpswapPool, slot, now, reserves.1, reserves.2⟩

def onGraduation (now : Instant) (cache : PoolStateCache) (monitor : NewPoolMonitor)
    (tokenMint pumpswapPool : Pubkey) (slot : Nat) : NewPoolMonitor :=
  match graduationEntry now cache tokenMint pumpswapPool slot with
  | none => monitor
  | some entry => monitor.insert tokenMint entry

section Scans

variable {F : Type}

def opportunityOf (now : Instant) (tokenMint : Pubkey) (watched : WatchedToken) (newPool : Pubkey)
    (dex : DexType) (routes : List (RouteParams F)) : SecondPoolArbOpportunity F where
  tokenMint := tokenMint
  pumpswapPool := watched.pumpswapPool
  newPool := newPool
  newPoolDex := dex
  timeSinceGraduation := now - watched.graduatedAt
  routes := routes

/-- The new pool is not compared with the watched one. -/
def onNewPoolDetected (now : Instant) (scan : Pubkey → WatchedToken → List (RouteParams F))
    (monitor : NewPoolMonitor) (tokenMint newPool : Pubkey) (dex : DexType) :
    NewPoolMonitor × Option (SecondPoolArbOpportunity F) :=
  match HashMap.get monitor tokenMint with
  | none => (monitor, none)
  | some watched =>
      (monitor.erase tokenMint,
        some (opportunityOf now tokenMint watched newPool dex (scan tokenMint watched)))

/-- The first cached pool of a watched token beside its PumpSwap pool, if the cache has
two pools of the token. -/
def secondPool (cache : PoolStateCache) (tokenMint : Pubkey) (watched : WatchedToken) :
    Option DexPool :=
  let pools := cache.poolsForToken tokenMint
  if pools.length < 2 then none
  else (pools.filter (fun pool => decide (pool.poolAddress ≠ watched.pumpswapPool))).head?

/-- The entries to remove and the opportunities found. -/
structure Checked (F : Type) where
  toRemove : List Pubkey
  opportunities : List (SecondPoolArbOpportunity F)

/-- One entry of `check_watched_tokens`. -/
def checkToken (now : Instant) (cache : PoolStateCache)
    (scan : Pubkey → WatchedToken → List (RouteParams F)) (tokenMint : Pubkey)
    (watched : WatchedToken) (checked : Checked F) : Checked F :=
  if Expired now watched then { checked with toRemove := checked.toRemove ++ [tokenMint] }
  else
    match secondPool cache tokenMint watched with
    | none => checked
    | some pool =>
        { toRemove := checked.toRemove ++ [tokenMint]
          opportunities := checked.opportunities ++
            [opportunityOf now tokenMint watched pool.poolAddress pool.dexType
              (scan tokenMint watched)] }

/-- The opportunity an entry gives. -/
def foundFor (now : Instant) (cache : PoolStateCache)
    (scan : Pubkey → WatchedToken → List (RouteParams F)) (tokenMint : Pubkey)
    (watched : WatchedToken) : Option (SecondPoolArbOpportunity F) :=
  if Expired now watched then none
  else (secondPool cache tokenMint watched).map (fun pool =>
    opportunityOf now tokenMint watched pool.poolAddress pool.dexType (scan tokenMint watched))

theorem checkToken_eq (now : Instant) (cache : PoolStateCache)
    (scan : Pubkey → WatchedToken → List (RouteParams F)) (tokenMint : Pubkey)
    (watched : WatchedToken) (checked : Checked F) :
    checkToken now cache scan tokenMint watched checked =
      { toRemove := checked.toRemove ++
          if Expired now watched ∨ (foundFor now cache scan tokenMint watched).isSome = true then
            [tokenMint]
          else []
        opportunities := checked.opportunities ++
          (foundFor now cache scan tokenMint watched).toList } := by
  rw [checkToken, foundFor]
  by_cases expired : Expired now watched
  · simp [expired]
  · cases secondPool cache tokenMint watched with
    | none => simp [expired]
    | some pool => simp [expired]

def checkWatchedTokens (now : Instant) (cache : PoolStateCache)
    (scan : Pubkey → WatchedToken → List (RouteParams F)) (monitor : NewPoolMonitor) :
    NewPoolMonitor × List (SecondPoolArbOpportunity F) :=
  let checked := monitor.entries.foldl (fun checked entry =>
    checkToken now cache scan entry.1 entry.2 checked) ⟨[], []⟩
  (checked.toRemove.foldl (fun left mint => left.erase mint) monitor, checked.opportunities)

end Scans

def cleanupExpired (now : Instant) (monitor : NewPoolMonitor) : NewPoolMonitor :=
  HashMap.retain monitor (fun _ watched => decide (¬ Expired now watched))

/-- The pool found is not the PumpSwap pool. -/
theorem secondPool_other (cache : PoolStateCache) (tokenMint : Pubkey) (watched : WatchedToken)
    (pool : DexPool) (found : secondPool cache tokenMint watched = some pool) :
    pool ∈ cache.poolsForToken tokenMint ∧ pool.poolAddress ≠ watched.pumpswapPool := by
  rw [secondPool] at found
  split at found
  · cases found
  · have member := List.mem_of_mem_head? (Option.mem_def.mpr found)
    rcases List.mem_filter.mp member with ⟨listed, other⟩
    exact ⟨listed, of_decide_eq_true other⟩

/-- Nothing is found exactly if the cache has fewer than two pools of the token, or no
other one. -/
theorem secondPool_none_iff (cache : PoolStateCache) (tokenMint : Pubkey)
    (watched : WatchedToken) :
    secondPool cache tokenMint watched = none ↔
      (cache.poolsForToken tokenMint).length < 2 ∨
        ∀ pool ∈ cache.poolsForToken tokenMint, pool.poolAddress = watched.pumpswapPool := by
  rw [secondPool]
  split
  · next few => exact iff_of_true rfl (Or.inl few)
  · next two =>
      rw [List.head?_eq_none_iff, List.filter_eq_nil_iff]
      constructor
      · intro none
        right
        intro pool member
        simpa using none pool member
      · intro either pool member
        simpa using either.resolve_left two pool member

end NewPoolMonitor

end Helios
