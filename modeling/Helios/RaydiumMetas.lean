import Helios.RefreshRounds
import Helios.Runs

/-! The Raydium metadata in the cache across refreshes: complete or absent, if every
staged pool finds its market in the same refresh. -/

namespace Helios.RaydiumMetas

open Fallible PoolHydrator Runs

/-- The vaults and the market accounts of a pool. -/
def accounts (metadata : RaydiumMetadata) : List Pubkey :=
  [metadata.vaultA, metadata.vaultB, metadata.marketId, metadata.marketProgram,
    metadata.marketEventQueue, metadata.marketBids, metadata.marketAsks, metadata.marketBaseVault,
    metadata.marketQuoteVault, metadata.marketVaultSigner]

/-- Fully resolved: no account is the placeholder key. -/
def Complete (metadata : RaydiumMetadata) : Prop := ∀ key ∈ accounts metadata, key ≠ default

instance (metadata : RaydiumMetadata) : Decidable (Complete metadata) := by
  unfold Complete
  infer_instance

def AllOrNothing (cache : PoolStateCache) : Prop :=
  ∀ key pool metadata, cache.get key = some pool → pool.raydiumMeta = some metadata →
    Complete metadata

/-- What a refresh starts from besides the cache. -/
structure RefreshInput where
  network : Network
  now : Instant
  mapped : List MappedPool

section Refresh

variable (pda : Pda)

def refresh (cache : PoolStateCache) (input : RefreshInput) : Except Panic PoolStateCache :=
  refreshAll pda input.network input.now input.mapped cache

/-- The metadata decoded from the pool's own account. -/
def decodedPool (cache : PoolStateCache) (input : RefreshInput) (key : Pubkey) :
    Option RaydiumMetadata :=
  stagedMeta pda input.mapped input.network cache key

/-- The market fetched and decoded for a pool. -/
def decodedMarket (cache : PoolStateCache) (input : RefreshInput) (key : Pubkey) :
    Option SerumMarket :=
  (decodedPool pda cache input key).bind
    (marketOf pda (marketAccounts pda input.network input.mapped cache))

/-- The law of one refresh: the metadata is complete or absent behind it, and stays
as it was where no market was fetched and decoded. -/
def KeepsMetas (cache : PoolStateCache) (input : RefreshInput) (after : PoolStateCache) : Prop :=
  AllOrNothing after ∧ ∀ key pool metadata, cache.get key = some pool →
    pool.raydiumMeta = some metadata → decodedMarket pda cache input key = none →
      (after.get key).map DexPool.raydiumMeta = some (some metadata)

/-- Every pool whose account was decoded has its market decoded too, and no key of
the two is the placeholder. -/
def MarketsFound (cache : PoolStateCache) (input : RefreshInput) : Prop :=
  ∀ key metadata, decodedPool pda cache input key = some metadata →
    ∃ market, decodedMarket pda cache input key = some market ∧
      Complete (withMarket metadata market)

theorem decodedPool_spec (cache : PoolStateCache) (input : RefreshInput) (key : Pubkey)
    (metadata : RaydiumMetadata) (decoded : decodedPool pda cache input key = some metadata) :
    (∃ pool, cache.get key = some pool) ∧ metadata.marketBids = default := by
  have member := List.mem_of_getLast? decoded
  rcases List.mem_filterMap.mp member with ⟨received, _, staged⟩
  rw [stagedBy] at staged
  split at staged
  · next both =>
      rcases Option.map_eq_some_iff.mp both.2 with ⟨pool, cached, _⟩
      rcases Option.bind_eq_some_iff.mp staged with ⟨expected, _, read⟩
      rcases decodeRaydiumAmm_value pda received.2 _ _ _ metadata
        ((Decoded.toOption_eq_some_iff _ _).mp read) with ⟨layout, _, from_layout⟩
      exact ⟨⟨pool, cached⟩, from_layout.noMarket⟩
  · cases staged

/-- What a refresh leaves in a pool's metadata. -/
theorem refresh_raydium (cache after : PoolStateCache) (input : RefreshInput)
    (done : refresh pda cache input = .ok after) (key : Pubkey) :
    (after.get key).map DexPool.raydiumMeta = (cache.get key).map (fun pool =>
      ((decodedPool pda cache input key).map (fun metadata =>
        ((decodedMarket pda cache input key).map (withMarket metadata)).getD metadata)).or
          pool.raydiumMeta) := by
  rcases (bind_eq_ok_iff _ _ _).mp done with ⟨flushed, filled, same⟩
  have entry := refreshMetadata_ok pda input.network input.mapped cache flushed filled key
  have balances := (refreshBalances_fixed input.network input.now input.mapped flushed).view
    FixedPart.raydiumMeta key
  have whole := congrArg (Option.map FixedPart.raydiumMeta) entry
  rw [Option.map_map, Option.map_map] at whole
  rw [← Except.ok.inj same]
  refine balances.trans (whole.trans (Option.map_congr ?_))
  intro pool _
  rw [decodedMarket, decodedPool]
  cases stagedMeta pda input.mapped input.network cache key with
  | none => rfl
  | some metadata => rfl

theorem complete_has_bids (metadata : RaydiumMetadata) (complete : Complete metadata) :
    metadata.marketBids ≠ default :=
  complete metadata.marketBids (by simp [accounts])

/-- A pool without a decoded account keeps its entry. -/
theorem refresh_undecoded (cache after : PoolStateCache) (input : RefreshInput)
    (done : refresh pda cache input = .ok after) (key : Pubkey)
    (undecoded : decodedPool pda cache input key = none) :
    (after.get key).map DexPool.raydiumMeta = (cache.get key).map DexPool.raydiumMeta := by
  rw [refresh_raydium pda cache after input done key, undecoded]
  rfl

/-- A pool with one has it overwritten. -/
theorem refresh_decoded (cache after : PoolStateCache) (input : RefreshInput)
    (done : refresh pda cache input = .ok after) (key : Pubkey) (metadata : RaydiumMetadata)
    (decoded : decodedPool pda cache input key = some metadata) :
    (after.get key).map DexPool.raydiumMeta = some (some
      (((decodedMarket pda cache input key).map (withMarket metadata)).getD metadata)) := by
  rcases (decodedPool_spec pda cache input key metadata decoded).1 with ⟨pool, cached⟩
  rw [refresh_raydium pda cache after input done key, decoded, cached]
  rfl

/-- One refresh of a clean cache keeps the law if and only if every decoded pool finds
its market. -/
theorem keepsMetas_iff (cache after : PoolStateCache) (input : RefreshInput)
    (clean : AllOrNothing cache) (done : refresh pda cache input = .ok after) :
    KeepsMetas pda cache input after ↔ MarketsFound pda cache input := by
  constructor
  · intro ⟨cleanAfter, _⟩ key metadata decoded
    have stored := refresh_decoded pda cache after input done key metadata decoded
    rcases Option.map_eq_some_iff.mp stored with ⟨pool, cached, held⟩
    have complete := cleanAfter key pool _ cached held
    cases found : decodedMarket pda cache input key with
    | none =>
        rw [found] at complete
        exact absurd (decodedPool_spec pda cache input key metadata decoded).2
          (complete_has_bids metadata complete)
    | some market =>
        rw [found] at complete
        exact ⟨market, rfl, complete⟩
  · intro found
    constructor
    · intro key pool metadata cached held
      have stored : (after.get key).map DexPool.raydiumMeta = some (some metadata) := by
        rw [cached, Option.map_some, held]
      cases decoded : decodedPool pda cache input key with
      | none =>
          rw [refresh_undecoded pda cache after input done key decoded] at stored
          rcases Option.map_eq_some_iff.mp stored with ⟨before, had, same⟩
          exact clean key before metadata had same
      | some fresh =>
          rcases found key fresh decoded with ⟨market, resolves, complete⟩
          rw [refresh_decoded pda cache after input done key fresh decoded, resolves] at stored
          cases stored
          exact complete
    · intro key pool metadata cached held missing
      have undecoded : decodedPool pda cache input key = none := by
        cases decoded : decodedPool pda cache input key with
        | none => rfl
        | some fresh =>
            rcases found key fresh decoded with ⟨market, resolves, _⟩
            rw [missing] at resolves
            cases resolves
      rw [refresh_undecoded pda cache after input done key undecoded, cached, Option.map_some, held]

/-- Over any sequence of refreshes of a clean cache, with any requests failing: the
metadata stays complete or absent, and untouched where the market is missing, all
along the sequence if and only if in each refresh every decoded pool finds its
market. -/
theorem metas_all_or_nothing_iff (start : PoolStateCache) (clean : AllOrNothing start)
    (inputs : List RefreshInput) :
    Along (refresh pda) (KeepsMetas pda) start inputs ↔
      Along (refresh pda) (fun cache input _ => MarketsFound pda cache input) start inputs := by
  refine along_iff (refresh pda) AllOrNothing _ _ ?_ start inputs clean
  intro cache input after cleanNow done
  exact ⟨keepsMetas_iff pda cache after input cleanNow done, fun law => law.1⟩

end Refresh

/-! A pool whose market request fails after its own has succeeded. -/

section Sample

def samplePda : Pda := ⟨fun _ _ => some (.ofNat 9), fun _ _ => .ofNat 9⟩

def completeMeta : RaydiumMetadata where
  authority := .ofNat 9
  nonce := 1
  openOrders := .ofNat 11
  targetOrders := .ofNat 12
  vaultA := .ofNat 13
  vaultB := .ofNat 14
  marketId := .ofNat 15
  marketProgram := .ofNat 16
  marketEventQueue := .ofNat 17
  marketBids := .ofNat 18
  marketAsks := .ofNat 19
  marketBaseVault := .ofNat 20
  marketQuoteVault := .ofNat 21
  marketVaultSigner := .ofNat 22

def completePool : DexPool where
  poolAddress := .ofNat 1
  dexType := .raydiumAmmV4
  tokenA := .ofNat 2
  tokenB := .ofNat 3
  decimalsA := 9
  decimalsB := 6
  reserveA := 0
  reserveB := 0
  reserveAOptimistic := 0
  reserveBOptimistic := 0
  lastShredUpdate := 0
  poolVaultABalance := 0
  poolVaultBBalance := 0
  marketVaultABalance := 0
  marketVaultBBalance := 0
  lastUpdated := 0
  feeBps := 25
  raydiumMeta := some completeMeta
  orcaMeta := none
  meteoraMeta := none

def completeCache : PoolStateCache := PoolStateCache.new.upsert completePool

def poolAccount : Account := List.replicate 752 1

/-- Only the first round is answered. -/
def halfNetwork : Network := fun stage _ =>
  ⟨fun _ _ => if stage = .pools then .ok [some poolAccount] else .error .other, none⟩

def halfRefresh : RefreshInput :=
  ⟨halfNetwork, 0, [⟨some (.ofNat 1), some default, some default⟩]⟩

def halfRefreshed : PoolStateCache :=
  (refresh samplePda completeCache halfRefresh).toOption.getD PoolStateCache.new

theorem completeCache_clean : AllOrNothing completeCache := by
  intro key pool metadata cached held
  have entries : HashMap.get completeCache.inner key =
      HashMap.get ((HashMap.empty : HashMap Pubkey DexPool).insert (.ofNat 1) completePool) key :=
    rfl
  rw [PoolStateCache.get, entries] at cached
  by_cases own : key = .ofNat 1
  · rw [own, HashMap.get_insert] at cached
    rw [← Option.some.inj cached] at held
    rw [← Option.some.inj held]
    decide +kernel
  · rw [HashMap.get_insert_ne _ _ _ _ own, HashMap.get_empty] at cached
    cases cached

theorem market_failure_overwrites :
    ¬ ∀ pda start inputs, AllOrNothing start →
      Along (refresh pda) (KeepsMetas pda) start inputs := by
  intro law
  have done : refresh samplePda completeCache halfRefresh = .ok halfRefreshed :=
    eq_ok_of_isSome _ _ (by decide +kernel)
  have clean := ((law samplePda completeCache [halfRefresh] completeCache_clean) _ done).1.1
  have lost : (halfRefreshed.get (.ofNat 1)).bind (fun pool =>
      pool.raydiumMeta.map RaydiumMetadata.marketBids) = some default := by
    decide +kernel
  rcases Option.bind_eq_some_iff.mp lost with ⟨pool, cached, stored⟩
  rcases Option.map_eq_some_iff.mp stored with ⟨metadata, held, empty⟩
  exact complete_has_bids metadata (clean _ pool metadata cached held) empty

theorem half_refresh_iff :
    Along (refresh samplePda) (KeepsMetas samplePda) completeCache [halfRefresh] ↔
      Along (refresh samplePda) (fun cache input _ => MarketsFound samplePda cache input)
        completeCache [halfRefresh] :=
  metas_all_or_nothing_iff samplePda completeCache completeCache_clean [halfRefresh]

end Sample

end Helios.RaydiumMetas
