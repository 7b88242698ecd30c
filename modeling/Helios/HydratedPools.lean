import Helios.PairIndex
import Helios.SignalProcessor

/-! What is left of the pools cached before a transaction was handled. A new pool is put
in only where none is cached, a graduated one always. -/

deriving instance DecidableEq for Helios.SwapDecoder.GraduationEvent

namespace Helios.HydratedPools

open Decoded SignalProcessor SwapDecoder

/-- With reserves, or with the metadata of a venue. -/
def Hydrated (pool : DexPool) : Prop :=
  pool.reserveA ≠ 0 ∨ pool.reserveB ≠ 0 ∨ pool.raydiumMeta.isSome = true ∨
    pool.orcaMeta.isSome = true ∨ pool.meteoraMeta.isSome = true

/-- The venue, the order of the tokens and the metadata, with the tick left out that an
Orca swap moves. -/
structure Identity where
  dexType : DexType
  tokenA : Pubkey
  tokenB : Pubkey
  raydium : Option RaydiumMetadata
  orca : Option OrcaMetadata
  meteora : Option MeteoraMetadata

def tickless (orca : OrcaMetadata) : OrcaMetadata := { orca with tickCurrentIndex := 0 }

def identityOf (pool : DexPool) : Identity where
  dexType := pool.dexType
  tokenA := pool.tokenA
  tokenB := pool.tokenB
  raydium := pool.raydiumMeta
  orca := pool.orcaMeta.map tickless
  meteora := pool.meteoraMeta

/-- Both copies of the reserves. -/
def reservesOf (pool : DexPool) : (Nat × Nat) × Nat × Nat :=
  ((pool.reserveA, pool.reserveB), pool.reserveAOptimistic, pool.reserveBOptimistic)

def decodedSwaps : Handled → List DetectedSwap
  | .graduated _ _ => []
  | .dropped _ _ => []
  | .decoded _ _ swaps => swaps

/-- The instructions' programs are all keys of the message, and a graduation is found. -/
structure Graduates (tx : TxMessage) (source : String) (event : GraduationEvent) : Prop where
  indexed : ∀ ix ∈ tx.instructions, ix.programIdIndex.toNat < tx.accountKeys.length
  source : graduationSource tx.accountKeys = some source
  event : detectGraduation tx.accountKeys tx.instructions = value event

/-- The tokens of a graduated pool: those the event names, or WSOL and the token. -/
def graduationTokens (event : GraduationEvent) : Pubkey × Pubkey :=
  match event.poolBaseMint, event.poolQuoteMint with
  | some base, some quote => (base, quote)
  | _, _ => (wsol, event.tokenMint)

/-- The reserves assumed: 79 SOL against the usual tokens, or none where the token has
more than two pools. -/
def estimatedReserves (cache : PoolStateCache) (event : GraduationEvent) : Nat × Nat :=
  if (cache.poolsForToken event.tokenMint).length ≤ 2 then
    if (graduationTokens event).1 = wsol then (79000000000, 206000000000)
    else (206000000000, 79000000000)
  else (0, 0)

/-- The cached pool is just what is assumed of a graduated one. -/
structure AsAssumed (accounts : List Pubkey) (source : String) (cache : PoolStateCache)
    (event : GraduationEvent) (pool : DexPool) : Prop where
  venue : pool.dexType = graduationDexType accounts source
  tokens : (pool.tokenA, pool.tokenB) = graduationTokens event
  bare : pool.raydiumMeta = none ∧ pool.orcaMeta = none ∧ pool.meteoraMeta = none
  reserves : (pool.reserveA, pool.reserveB) = estimatedReserves cache event
  optimistic : pool.reserveAOptimistic = 0 ∧ pool.reserveBOptimistic = 0

/-- A graduated pool keeps nothing of the pool it replaces that is not as assumed. -/
theorem asAssumed_iff (now : Instant) (accounts : List Pubkey) (source : String)
    (cache : PoolStateCache) (event : GraduationEvent) (pool : DexPool) :
    AsAssumed accounts source cache event pool ↔
      identityOf (graduationPool now accounts source cache event) = identityOf pool ∧
      reservesOf (graduationPool now accounts source cache event) = reservesOf pool := by
  have identity : identityOf (graduationPool now accounts source cache event) =
      ⟨graduationDexType accounts source, (graduationTokens event).1, (graduationTokens event).2,
        none, none, none⟩ := rfl
  have reserves : reservesOf (graduationPool now accounts source cache event) =
      (estimatedReserves cache event, 0, 0) := rfl
  rw [identity, reserves]
  constructor
  · intro assumed
    rcases assumed.bare with ⟨raydium, orca, meteora⟩
    constructor
    · rw [identityOf, assumed.venue, ← congrArg Prod.fst assumed.tokens,
        ← congrArg Prod.snd assumed.tokens, raydium, orca, meteora]
      rfl
    · rw [reservesOf, ← assumed.reserves, assumed.optimistic.1, assumed.optimistic.2]
  · intro ⟨sameIdentity, sameReserves⟩
    have noOrca := congrArg Identity.orca sameIdentity
    exact {
      venue := (congrArg Identity.dexType sameIdentity).symm
      tokens := Prod.ext (congrArg Identity.tokenA sameIdentity).symm
        (congrArg Identity.tokenB sameIdentity).symm
      bare := ⟨(congrArg Identity.raydium sameIdentity).symm,
        Option.map_eq_none_iff.mp noOrca.symm, (congrArg Identity.meteora sameIdentity).symm⟩
      reserves := (congrArg Prod.fst sameReserves).symm
      optimistic := ⟨(congrArg (fun pair => pair.2.1) sameReserves).symm,
        (congrArg (fun pair => pair.2.2) sameReserves).symm⟩ }

section Handling

variable {F : Type} [FloatArith F] (powf : F → F → F) (now : Instant)

/-- A pool moved by a swap decoded from the transaction. -/
def movedBy (pool : DexPool) (swap : DetectedSwap) : DexPool :=
  pool.applySwapDelta powf now swap.amountIn (pool.quote powf now swap.aToB swap.amountIn) swap.aToB

/-- The identity of a pool is kept, and its reserves but for the swaps. -/
structure KeptBut (swaps : List DetectedSwap) (before after : DexPool) : Prop where
  identity : identityOf after = identityOf before
  reserves : reservesOf after = reservesOf (swaps.foldl (movedBy powf now) before)

/-- Every hydrated pool outlives the transaction, changed by its decoded swaps alone. -/
def KeepsHydrated (monitor : Bool) (cache : PoolStateCache) (tx : TxMessage) : Prop :=
  ∀ after handled, handleNewTx powf now monitor cache tx = value (after, handled) →
    ∀ address pool, cache.get address = some pool → Hydrated pool →
      ∃ held, after.get address = some held ∧
        KeptBut powf now
          ((decodedSwaps handled).filter (fun swap => decide (swap.pool = address))) pool held

omit [FloatArith F] in
theorem tickless_moved (metadata : Option OrcaMetadata) (test : OrcaMetadata → Prop)
    [DecidablePred test] (tick : OrcaMetadata → Int) :
    (metadata.map (fun orca =>
      if test orca then { orca with tickCurrentIndex := tick orca } else orca)).map tickless =
        metadata.map tickless := by
  rw [Option.map_map]
  apply Option.map_congr
  intro orca _
  rw [Function.comp_apply]
  split
  · rfl
  · rfl

theorem identity_movedBy (pool : DexPool) (swap : DetectedSwap) :
    identityOf (movedBy powf now pool swap) = identityOf pool := by
  rw [movedBy, DexPool.applySwapDelta]
  generalize pool.quote powf now swap.aToB swap.amountIn = amountOut
  by_cases kind : pool.dexType = .orcaWhirlpool
  · cases swap.aToB with
    | false =>
        simp only [Bool.false_eq_true, if_false, kind, if_true, identityOf]
        rw [tickless_moved]
    | true =>
        simp only [kind, if_true, identityOf]
        rw [tickless_moved]
  · cases swap.aToB with
    | false => simp only [Bool.false_eq_true, if_false, kind, identityOf]
    | true => simp only [if_true, kind, if_false, identityOf]

theorem identity_foldl_movedBy (swaps : List DetectedSwap) (pool : DexPool) :
    identityOf (swaps.foldl (movedBy powf now) pool) = identityOf pool := by
  induction swaps generalizing pool with
  | nil => rfl
  | cons swap rest ih => rw [List.foldl_cons, ih, identity_movedBy]

theorem get_insertCreated (cache : PoolStateCache) (creation : PoolCreationEvent)
    (address : Pubkey) (pool : DexPool) (cached : cache.get address = some pool) :
    (insertCreated now cache creation).get address = some pool := by
  rw [insertCreated]
  split
  · exact cached
  · next absent =>
      rw [PairIndex.get_upsert, if_neg, cached]
      intro same
      have here : address = creation.pool := same
      rw [← here, cached] at absent
      exact absent rfl

theorem get_insertAll (creations : List PoolCreationEvent) (cache : PoolStateCache)
    (address : Pubkey) (pool : DexPool) (cached : cache.get address = some pool) :
    (creations.foldl (insertCreated now) cache).get address = some pool := by
  induction creations generalizing cache with
  | nil => exact cached
  | cons creation rest ih => exact ih _ (get_insertCreated now cache creation address pool cached)

theorem get_applySwap (cache : PoolStateCache) (swap : DetectedSwap) (address : Pubkey) :
    (applySwap powf now cache swap).get address =
      if swap.pool = address then (cache.get address).map (fun pool => movedBy powf now pool swap)
      else cache.get address := by
  rw [applySwap]
  split
  · next pool cached =>
      change (cache.getMut swap.pool _).get address = _
      rw [PoolStateCache.get_getMut]
      by_cases same : swap.pool = address
      · rw [if_pos same.symm, if_pos same, ← same, cached]
        rfl
      · rw [if_neg (Ne.symm same), if_neg same]
  · next absent =>
      change (cache.getMut swap.pool _).get address = _
      rw [PoolStateCache.get_getMut]
      by_cases same : swap.pool = address
      · rw [if_pos same.symm, if_pos same, ← same, absent]
        rfl
      · rw [if_neg (Ne.symm same), if_neg same]

/-- A pool is moved by its own swaps, in their order. -/
theorem get_applySwaps (swaps : List DetectedSwap) (cache : PoolStateCache) (address : Pubkey)
    (pool : DexPool) (cached : cache.get address = some pool) :
    (swaps.foldl (applySwap powf now) cache).get address =
      some ((swaps.filter (fun swap => decide (swap.pool = address))).foldl (movedBy powf now)
        pool) := by
  induction swaps generalizing cache pool with
  | nil => exact cached
  | cons swap rest ih =>
      rw [List.foldl_cons, List.filter_cons]
      by_cases same : swap.pool = address
      · rw [if_pos (decide_eq_true same), List.foldl_cons]
        apply ih
        rw [get_applySwap, if_pos same, cached]
        rfl
      · rw [if_neg (by simpa using same)]
        apply ih
        rw [get_applySwap, if_neg same, cached]

theorem handleOther_kept (monitor : Bool) (cache : PoolStateCache) (programIds : List Pubkey)
    (tx : TxMessage) (after : PoolStateCache) (handled : Handled)
    (ran : handleOther powf now monitor cache programIds tx = value (after, handled))
    (address : Pubkey) (pool : DexPool) (cached : cache.get address = some pool) :
    after.get address =
      some (((decodedSwaps handled).filter (fun swap => decide (swap.pool = address))).foldl
        (movedBy powf now) pool) := by
  rw [handleOther] at ran
  rcases (bind_eq_value_iff _ _ _).mp ran with ⟨creations, -, ran⟩
  rcases (bind_eq_value_iff _ _ _).mp ran with ⟨lpEvents, -, ran⟩
  have filled := get_insertAll now creations cache address pool cached
  split at ran
  · cases ran
    exact filled
  · rcases (bind_eq_value_iff _ _ _).mp ran with ⟨swaps, -, ran⟩
    cases ran
    have moved := get_applySwaps powf now swaps _ address pool filled
    split
    · exact moved
    · exact moved

theorem handleNewTx_graduates (monitor : Bool) (cache : PoolStateCache) (tx : TxMessage)
    (source : String) (event : GraduationEvent) (graduates : Graduates tx source event) :
    handleNewTx powf now monitor cache tx =
      value (cache.upsert (graduationPool now tx.accountKeys source cache event),
        .graduated source event) := by
  rcases (returns_extractProgramIds_iff tx).mpr graduates.indexed with ⟨programIds, ids⟩
  rw [handleNewTx, ids, value_bind, graduates.source, graduates.event]
  rfl

/-- A transaction that is handled either graduates a token or takes the other path. -/
theorem handleNewTx_cases (monitor : Bool) (cache : PoolStateCache) (tx : TxMessage)
    (after : PoolStateCache) (handled : Handled)
    (ran : handleNewTx powf now monitor cache tx = value (after, handled)) :
    (∃ source event, Graduates tx source event ∧
        after = cache.upsert (graduationPool now tx.accountKeys source cache event) ∧
        handled = .graduated source event) ∨
      ∃ programIds, handleOther powf now monitor cache programIds tx = value (after, handled) := by
  rw [handleNewTx] at ran
  rcases (bind_eq_value_iff _ _ _).mp ran with ⟨programIds, ids, ran⟩
  cases found : graduationSource tx.accountKeys with
  | none =>
      rw [found] at ran
      exact Or.inr ⟨programIds, ran⟩
  | some source =>
      rw [found] at ran
      rcases (bind_eq_value_iff _ _ _).mp ran with ⟨outcome, searched, ran⟩
      cases outcome with
      | none => exact Or.inr ⟨programIds, ran⟩
      | some event =>
          cases ran
          left
          refine ⟨source, event, ⟨?_, found, ?_⟩, rfl, rfl⟩
          · exact (returns_extractProgramIds_iff tx).mp ⟨programIds, ids⟩
          · cases detected : detectGraduation tx.accountKeys tx.instructions with
            | panicked =>
                rw [detected] at searched
                cases searched
            | refused =>
                rw [detected] at searched
                cases searched
            | value seen =>
                rw [detected] at searched
                cases searched
                rfl

/-- Hydrated pools outlive a transaction exactly if a graduation in it does not name one
that differs from what is assumed of graduated pools. -/
theorem keepsHydrated_iff (monitor : Bool) (cache : PoolStateCache) (tx : TxMessage) :
    KeepsHydrated powf now monitor cache tx ↔
      ∀ source event pool, Graduates tx source event → cache.get event.pumpPool = some pool →
        Hydrated pool → AsAssumed tx.accountKeys source cache event pool := by
  constructor
  · intro keeps source event pool graduates cached hydrated
    have ran := handleNewTx_graduates powf now monitor cache tx source event graduates
    rcases keeps _ _ ran event.pumpPool pool cached hydrated with ⟨held, found, kept⟩
    have named : event.pumpPool =
        (graduationPool now tx.accountKeys source cache event).poolAddress := rfl
    rw [PairIndex.get_upsert, if_pos named] at found
    cases found
    exact (asAssumed_iff now tx.accountKeys source cache event pool).mpr
      ⟨kept.identity, kept.reserves⟩
  · intro assumed after handled ran address pool cached hydrated
    rcases handleNewTx_cases powf now monitor cache tx after handled ran with
      ⟨source, event, graduates, same, outcome⟩ | ⟨programIds, other⟩
    · rw [same, outcome, PairIndex.get_upsert]
      by_cases named : address = event.pumpPool
      · rw [named] at cached
        have both := (asAssumed_iff now tx.accountKeys source cache event pool).mp
          (assumed source event pool graduates cached hydrated)
        exact ⟨_, if_pos named, both.1, both.2⟩
      · exact ⟨pool, (if_neg named).trans cached, rfl, rfl⟩
    · have held := handleOther_kept powf now monitor cache programIds tx after handled other
        address pool cached
      exact ⟨_, held, identity_foldl_movedBy powf now _ pool, rfl⟩

end Handling

/-- `create_pool` with an address that is cached already. -/
def secondCreation : TxMessage :=
  ⟨[.ofNat 1, .ofNat 2, .ofNat 3, wsol, DexPrograms.pumpswap],
    [⟨4, [0, 1, 1, 2, 3], pumpSwapCreatePoolDisc⟩]⟩

def hydratedPool : DexPool :=
  { PairIndex.graduatedPool (.ofNat 3) wsol with
    poolAddress := .ofNat 1
    dexType := .raydiumAmmV4
    reserveA := 5
    reserveB := 7 }

/-- A pool with known reserves is replaced by the estimate. -/
theorem hydrated_pool_replaced :
    ¬ KeepsHydrated (fun base _ => base : ℚ → ℚ → ℚ) 0 true
      (PoolStateCache.new.upsert hydratedPool) secondCreation := by
  intro keeps
  have programs : ∀ ix ∈ secondCreation.instructions,
      ix.programIdIndex.toNat < secondCreation.accountKeys.length := by
    intro ix member
    rw [List.mem_singleton.mp member]
    decide
  have source : graduationSource secondCreation.accountKeys = some "PumpSwap" := by decide +kernel
  have event : detectGraduation secondCreation.accountKeys secondCreation.instructions =
      value ⟨.ofNat 3, .ofNat 1, some (.ofNat 2), some (.ofNat 3), some wsol⟩ := by
    decide +kernel
  have assumed := (keepsHydrated_iff _ 0 true _ secondCreation).mp keeps "PumpSwap" _ hydratedPool
    ⟨programs, source, event⟩ (HashMap.get_insert _ _ _) (Or.inl (by decide))
  exact absurd assumed.venue (by decide)

end Helios.HydratedPools
