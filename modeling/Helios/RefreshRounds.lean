import Helios.PoolHydrator
import Helios.Fallible

/-! What each round of a refresh leaves behind: the metadata the first one stages,
the market the fourth one adds to it, and the entry the cache ends up with. -/

namespace Helios.PoolHydrator

open Fallible

/-- What the rounds that fetch arrays and balances leave alone. -/
structure FixedPart where
  poolAddress : Pubkey
  dexType : DexType
  tokenA : Pubkey
  tokenB : Pubkey
  raydiumMeta : Option RaydiumMetadata
  /-- A Raydium pool has the metadata of no other venue. -/
  plain : Bool

def fixedPart (pool : DexPool) : FixedPart where
  poolAddress := pool.poolAddress
  dexType := pool.dexType
  tokenA := pool.tokenA
  tokenB := pool.tokenB
  raydiumMeta := pool.raydiumMeta
  plain := decide (pool.dexType = .raydiumAmmV4 → pool.orcaMeta = none ∧ pool.meteoraMeta = none)

def SameFixed (before after : PoolStateCache) : Prop :=
  ∀ key, (after.get key).map fixedPart = (before.get key).map fixedPart

theorem SameFixed.trans {first second third : PoolStateCache} (left : SameFixed first second)
    (right : SameFixed second third) : SameFixed first third :=
  fun key => (right key).trans (left key)

theorem SameFixed.view {before after : PoolStateCache} (same : SameFixed before after) {γ : Type}
    (view : FixedPart → γ) (key : Pubkey) :
    (after.get key).map (fun pool => view (fixedPart pool)) =
      (before.get key).map (fun pool => view (fixedPart pool)) := by
  have whole := congrArg (Option.map view) (same key)
  rw [Option.map_map, Option.map_map] at whole
  exact whole

theorem SameFixed.kind {before after : PoolStateCache} (same : SameFixed before after)
    (key : Pubkey) : (after.get key).map DexPool.dexType = (before.get key).map DexPool.dexType :=
  same.view FixedPart.dexType key

theorem sameFixed_getMut (cache : PoolStateCache) (address : Pubkey) (change : DexPool → DexPool)
    (keeps : ∀ pool, cache.get address = some pool → fixedPart (change pool) = fixedPart pool) :
    SameFixed cache (cache.getMut address change) :=
  fun key => PoolStateCache.map_get_getMut fixedPart cache address key change keeps

/-- New metadata of a pool of another venue. -/
theorem sameFixed_foreign (cache : PoolStateCache) (address : Pubkey) (pool : DexPool)
    (cached : cache.get address = some pool) (other : pool.dexType ≠ .raydiumAmmV4)
    (change : DexPool → DexPool)
    (keeps : { fixedPart (change pool) with plain := true } =
      { fixedPart pool with plain := true }) :
    SameFixed cache (cache.getMut address change) := by
  refine sameFixed_getMut cache address change ?_
  intro held found
  rw [cached] at found
  rw [← Option.some.inj found]
  have before : (fixedPart pool).plain = true :=
    decide_eq_true (fun same => absurd same other)
  have kind : (change pool).dexType = pool.dexType := congrArg FixedPart.dexType keeps
  have after : (fixedPart (change pool)).plain = true :=
    decide_eq_true (fun same => absurd (kind.symm.trans same) other)
  calc fixedPart (change pool)
      = { fixedPart (change pool) with plain := true } := by rw [← after]
    _ = { fixedPart pool with plain := true } := keeps
    _ = fixedPart pool := by rw [← before]

theorem onDecoded_eq_ok_iff {α β : Type} (result : Decoded α) (unchanged : β) (use : α → β)
    (after : β) : onDecoded result unchanged use = .ok after ↔
      (result = .refused ∧ after = unchanged) ∨
        ∃ decoded, result = .value decoded ∧ after = use decoded := by
  cases result with
  | panicked => simp [onDecoded]
  | refused => simp [onDecoded, eq_comm]
  | value decoded => simp [onDecoded, eq_comm]

/-! The first round. -/

theorem decodeRaydiumAmm_short (pda : Pda) (data : Account) (dexProgram expectedA expectedB : Pubkey)
    (short : ¬ 752 ≤ data.length) :
    decodeRaydiumAmm pda data dexProgram expectedA expectedB = .refused :=
  if_pos (not_le.mp short)

section Staging

variable (pda : Pda) (mapped : List MappedPool)

/-- The metadata an account received for a cached Raydium pool decodes to. -/
def stagedBy (cache : PoolStateCache) (pubkey : Pubkey) (received : Pubkey × Account) :
    Option RaydiumMetadata :=
  if received.1 = pubkey ∧ (cache.get pubkey).map DexPool.dexType = some .raydiumAmmV4 then
    (HashMap.get (expectedVaults mapped) pubkey).bind (fun expected =>
      (decodeRaydiumAmm pda received.2 DexPrograms.raydiumAmmV4 expected.1 expected.2).toOption)
  else none

theorem stagedBy_other (cache : PoolStateCache) (key : Pubkey) (received : Pubkey × Account)
    (other : key ≠ received.1) : stagedBy pda mapped cache key received = none :=
  if_neg (fun both => other both.1.symm)

theorem stagedBy_foreign (cache : PoolStateCache) (key : Pubkey) (received : Pubkey × Account)
    (foreign : (cache.get received.1).map DexPool.dexType ≠ some .raydiumAmmV4) :
    stagedBy pda mapped cache key received = none := by
  apply if_neg
  intro both
  rw [both.1] at foreign
  exact foreign both.2

theorem stagedBy_unlisted (cache : PoolStateCache) (key : Pubkey) (received : Pubkey × Account)
    (unlisted : HashMap.get (expectedVaults mapped) received.1 = none) :
    stagedBy pda mapped cache key received = none := by
  rw [stagedBy]
  split
  · next both => rw [← both.1, unlisted, Option.bind_none]
  · rfl

theorem stagedBy_short (cache : PoolStateCache) (key : Pubkey) (received : Pubkey × Account)
    (short : ¬ 752 ≤ received.2.length) : stagedBy pda mapped cache key received = none := by
  rw [stagedBy]
  split
  · cases HashMap.get (expectedVaults mapped) key with
    | none => rfl
    | some expected =>
        rw [Option.bind_some, decodeRaydiumAmm_short pda _ _ _ _ short]
        rfl
  · rfl

/-- One account: at most its own pool is staged, and no fixed part changes. -/
structure StagedOne (staging next : Staging) (received : Pubkey × Account) : Prop where
  fixed : SameFixed staging.cache next.cache
  metas : ∀ key, HashMap.get next.pendingRaydiumMetas key =
    (stagedBy pda mapped staging.cache key received).or
      (HashMap.get staging.pendingRaydiumMetas key)
  markets : ∀ key, HashMap.get next.raydiumMarkets key =
    ((stagedBy pda mapped staging.cache key received).map RaydiumMetadata.marketId).or
      (HashMap.get staging.raydiumMarkets key)

/-- An account that is not decoded for a Raydium pool. -/
theorem staged_idle (staging next : Staging) (received : Pubkey × Account)
    (metas : next.pendingRaydiumMetas = staging.pendingRaydiumMetas)
    (markets : next.raydiumMarkets = staging.raydiumMarkets)
    (fixed : SameFixed staging.cache next.cache)
    (undecoded : ∀ key, stagedBy pda mapped staging.cache key received = none) :
    StagedOne pda mapped staging next received := by
  constructor
  · exact fixed
  · intro key
    rw [undecoded key, metas]
    rfl
  · intro key
    rw [undecoded key, markets]
    rfl

theorem stageRaydium_spec (staging next : Staging) (received : Pubkey × Account)
    (raydium : (staging.cache.get received.1).map DexPool.dexType = some .raydiumAmmV4)
    (done : stageRaydium pda mapped staging received.1 received.2 = .ok next) :
    StagedOne pda mapped staging next received := by
  rw [stageRaydium] at done
  split at done
  · next unlisted =>
      cases done
      apply staged_idle pda mapped staging staging received rfl rfl (fun _ => rfl)
      intro key
      exact stagedBy_unlisted pda mapped staging.cache key received unlisted
  · next expectedA expectedB found =>
      have own : stagedBy pda mapped staging.cache received.1 received =
          (decodeRaydiumAmm pda received.2 DexPrograms.raydiumAmmV4 expectedA
            expectedB).toOption := by
        rw [stagedBy, if_pos ⟨rfl, raydium⟩, found, Option.bind_some]
      rcases (onDecoded_eq_ok_iff _ _ _ _).mp done with
        ⟨refused, same⟩ | ⟨metadata, decoded, same⟩
      · rw [same]
        apply staged_idle pda mapped staging staging received rfl rfl (fun _ => rfl)
        intro key
        by_cases mine : key = received.1
        · rw [mine, own, refused]
          rfl
        · exact stagedBy_other pda mapped staging.cache key received mine
      · rw [decoded] at own
        rw [same]
        constructor
        · exact fun _ => rfl
        · intro key
          by_cases mine : key = received.1
          · rw [mine, own]
            exact HashMap.get_insert _ _ _
          · rw [stagedBy_other pda mapped staging.cache key received mine]
            exact HashMap.get_insert_ne _ _ _ _ mine
        · intro key
          by_cases mine : key = received.1
          · rw [mine, own]
            exact HashMap.get_insert _ _ _
          · rw [stagedBy_other pda mapped staging.cache key received mine]
            exact HashMap.get_insert_ne _ _ _ _ mine

theorem stageOrca_spec (staging next : Staging) (received : Pubkey × Account) (pool : DexPool)
    (cached : staging.cache.get received.1 = some pool) (orca : pool.dexType = .orcaWhirlpool)
    (undecoded : ∀ key, stagedBy pda mapped staging.cache key received = none)
    (done : stageOrca pda staging received.1 received.2 = .ok next) :
    StagedOne pda mapped staging next received := by
  have unchanged := staged_idle pda mapped staging staging received rfl rfl (fun _ => rfl) undecoded
  rcases (onDecoded_eq_ok_iff _ _ _ _).mp done with ⟨_, same⟩ | ⟨metadata, _, same⟩
  · rw [same]
    exact unchanged
  · by_cases zero : metadata.tickSpacing = 0
    · rw [same, if_pos zero]
      exact unchanged
    · rw [same, if_neg zero]
      have other : pool.dexType ≠ .raydiumAmmV4 :=
        fun raydium => DexType.noConfusion (raydium.symm.trans orca)
      exact staged_idle pda mapped staging _ received rfl rfl
        (sameFixed_foreign _ _ pool cached other _ rfl) undecoded

theorem stageMeteora_spec (staging next : Staging) (received : Pubkey × Account) (pool : DexPool)
    (cached : staging.cache.get received.1 = some pool) (meteora : pool.dexType = .meteoraDlmm)
    (undecoded : ∀ key, stagedBy pda mapped staging.cache key received = none)
    (done : stageMeteora pda staging received.1 received.2 = .ok next) :
    StagedOne pda mapped staging next received := by
  rcases (onDecoded_eq_ok_iff _ _ _ _).mp done with ⟨_, same⟩ | ⟨decoded, _, same⟩
  · rw [same]
    exact staged_idle pda mapped staging staging received rfl rfl (fun _ => rfl) undecoded
  · rw [same]
    have other : pool.dexType ≠ .raydiumAmmV4 :=
      fun raydium => DexType.noConfusion (raydium.symm.trans meteora)
    exact staged_idle pda mapped staging _ received rfl rfl
      (sameFixed_foreign _ _ pool cached other _ rfl) undecoded

theorem stagePool_spec (staging next : Staging) (received : Pubkey × Account)
    (done : stagePool pda mapped staging received = .ok next) :
    StagedOne pda mapped staging next received := by
  have foreign := fun key => stagedBy_foreign pda mapped staging.cache key received
  rw [stagePool] at done
  split at done
  · next absent =>
      cases done
      apply staged_idle pda mapped staging staging received rfl rfl (fun _ => rfl)
      exact fun key => foreign key (by rw [absent]; exact nofun)
  · next pool cached =>
      have kind : (staging.cache.get received.1).map DexPool.dexType = some pool.dexType := by
        rw [cached, Option.map_some]
      split at done
      · next raydium =>
          apply stageRaydium_spec pda mapped staging next received _ done
          rw [kind, raydium.1]
      · next notRaydium =>
          have undecoded : ∀ key, stagedBy pda mapped staging.cache key received = none := by
            intro key
            by_cases raydium : pool.dexType = .raydiumAmmV4
            · exact stagedBy_short pda mapped staging.cache key received
                (fun long => notRaydium ⟨raydium, long⟩)
            · apply foreign key
              rw [kind]
              exact fun same => raydium (Option.some.inj same)
          split at done
          · next orca =>
              exact stageOrca_spec pda mapped staging next received pool cached orca undecoded done
          · split at done
            · next meteora =>
                exact stageMeteora_spec pda mapped staging next received pool cached meteora undecoded
                  done
            · cases done
              exact staged_idle pda mapped staging staging received rfl rfl (fun _ => rfl) undecoded

/-- The last decodable account a round brought in for a pool. -/
def stagedMeta (network : Network) (cache : PoolStateCache) (key : Pubkey) :
    Option RaydiumMetadata :=
  ((fetch network .pools (poolKeys mapped)).filterMap (stagedBy pda mapped cache key)).getLast?

theorem stagedBy_congr (before after : PoolStateCache) (same : SameFixed before after)
    (key : Pubkey) (received : Pubkey × Account) :
    stagedBy pda mapped after key received = stagedBy pda mapped before key received := by
  rw [stagedBy, stagedBy, same.kind key]

theorem stagePools_spec (network : Network) (cache : PoolStateCache) (staging : Staging)
    (done : stagePools pda network mapped cache = .ok staging) :
    SameFixed cache staging.cache ∧ ∀ key,
      HashMap.get staging.pendingRaydiumMetas key = stagedMeta pda mapped network cache key ∧
      HashMap.get staging.raydiumMarkets key =
        (stagedMeta pda mapped network cache key).map RaydiumMetadata.marketId := by
  have keeps : ∀ received ∈ fetch network .pools (poolKeys mapped), ∀ state next : Staging,
      SameFixed cache state.cache → stagePool pda mapped state received = .ok next →
        SameFixed cache next.cache := by
    intro received _ state next fixed stepped
    exact fixed.trans (stagePool_spec pda mapped state next received stepped).fixed
  refine ⟨foldlM_invariant (stagePool pda mapped) (fun state => SameFixed cache state.cache) _ _ _
    (fun _ => rfl) keeps done, ?_⟩
  intro key
  constructor
  · have last := foldlM_last (stagePool pda mapped) (fun state => SameFixed cache state.cache)
      (fun state => HashMap.get state.pendingRaydiumMetas key) (stagedBy pda mapped cache key) _ _ _
      (fun _ => rfl) (by
        intro received member state next fixed stepped
        refine ⟨keeps received member state next fixed stepped, ?_⟩
        rw [← stagedBy_congr pda mapped cache state.cache fixed]
        exact (stagePool_spec pda mapped state next received stepped).metas key) done
    rw [HashMap.get_empty, Option.or_none] at last
    exact last
  · have last := foldlM_last (stagePool pda mapped) (fun state => SameFixed cache state.cache)
      (fun state => HashMap.get state.raydiumMarkets key)
      (fun received => (stagedBy pda mapped cache key received).map RaydiumMetadata.marketId) _ _ _
      (fun _ => rfl) (by
        intro received member state next fixed stepped
        refine ⟨keeps received member state next fixed stepped, ?_⟩
        rw [← stagedBy_congr pda mapped cache state.cache fixed]
        exact (stagePool_spec pda mapped state next received stepped).markets key) done
    rw [HashMap.get_empty, Option.or_none, ← List.map_filterMap, List.getLast?_map] at last
    exact last

end Staging

/-! The arrays. -/

theorem storeArrays_fixed {A : Type} (store : HashMap Int A → DexPool → DexPool)
    (keeps : ∀ arrays pool, fixedPart (store arrays pool) = fixedPart pool)
    (byPool : HashMap Pubkey (HashMap Int A)) (cache : PoolStateCache) :
    SameFixed cache (storeArrays store byPool cache) := by
  rw [storeArrays]
  induction byPool.entries generalizing cache with
  | nil => exact fun _ => rfl
  | cons entry rest ih =>
      exact (sameFixed_getMut cache entry.1 (store entry.2) (fun pool _ => keeps entry.2 pool)).trans
        (ih _)

theorem storeBinArrays_fixed (binArrays : HashMap Int Meteora.MeteoraBinArray) (pool : DexPool) :
    fixedPart (storeBinArrays binArrays pool) = fixedPart pool := by
  simp [fixedPart, storeBinArrays]

theorem storeTickArrays_fixed (tickArrays : HashMap Int Orca.OrcaTickArray) (pool : DexPool) :
    fixedPart (storeTickArrays tickArrays pool) = fixedPart pool := by
  simp [fixedPart, storeTickArrays]

/-! The markets. -/

section Markets

variable (pda : Pda)

/-- The market a received account decodes to for a pool. -/
def marketBy (metadata : RaydiumMetadata) (received : Pubkey × Account) : Option SerumMarket :=
  if received.1 = metadata.marketId then
    (decodeSerumMarket pda received.2 metadata.marketId metadata.marketProgram).toOption
  else none

/-- The last market among the accounts received. -/
def marketOf (received : List (Pubkey × Account)) (metadata : RaydiumMetadata) :
    Option SerumMarket :=
  (received.filterMap (marketBy pda metadata)).getLast?

def resolved (received : List (Pubkey × Account)) (metadata : RaydiumMetadata) : RaydiumMetadata :=
  ((marketOf pda received metadata).map (withMarket metadata)).getD metadata

/-- Equal but for the market fields. -/
def SameAmm (first second : RaydiumMetadata) : Prop :=
  first.marketId = second.marketId ∧ first.marketProgram = second.marketProgram ∧
    ∀ market, withMarket first market = withMarket second market

theorem SameAmm.marketBy {first second : RaydiumMetadata} (same : SameAmm first second)
    (received : Pubkey × Account) :
    marketBy pda first received = PoolHydrator.marketBy pda second received := by
  rw [PoolHydrator.marketBy, PoolHydrator.marketBy, same.1, same.2.1]

theorem sameAmm_withMarket (metadata : RaydiumMetadata) (market : SerumMarket) :
    SameAmm (withMarket metadata market) metadata :=
  ⟨rfl, rfl, fun _ => rfl⟩

/-- What one account puts into the entry of a pool that names a market. -/
def marketFor (metadata : RaydiumMetadata) (received : Pubkey × Account) (market : Pubkey) :
    Option RaydiumMetadata :=
  if received.1 = market then
    (decodeSerumMarket pda received.2 market metadata.marketProgram).toOption.map
      (withMarket metadata)
  else none

theorem marketFor_own (metadata : RaydiumMetadata) (received : Pubkey × Account) :
    marketFor pda metadata received metadata.marketId =
      (marketBy pda metadata received).map (withMarket metadata) := by
  rw [marketFor, marketBy]
  split
  · rfl
  · rfl

/-- The entry is there, as it was staged but for the market fields. -/
def Staged (pending : HashMap Pubkey RaydiumMetadata) (key : Pubkey) (metadata : RaydiumMetadata) :
    Prop :=
  ∃ current, HashMap.get pending key = some current ∧ SameAmm current metadata

theorem resolvePool_spec (received : Pubkey × Account)
    (pending next : HashMap Pubkey RaydiumMetadata) (poolId candidateMarket key : Pubkey)
    (metadata : RaydiumMetadata) (staged : Staged pending key metadata)
    (done : resolvePool pda received pending poolId candidateMarket = .ok next) :
    Staged next key metadata ∧ HashMap.get next key =
      (if poolId = key then marketFor pda metadata received candidateMarket else none).or
        (HashMap.get pending key) := by
  have unchanged : next = pending →
      (if poolId = key then marketFor pda metadata received candidateMarket else none) = none →
      Staged next key metadata ∧ HashMap.get next key =
        (if poolId = key then marketFor pda metadata received candidateMarket else none).or
          (HashMap.get pending key) := by
    intro same silent
    rw [same, silent]
    exact ⟨staged, rfl⟩
  rcases staged with ⟨current, found, same⟩
  rw [resolvePool] at done
  split at done
  · next other =>
      refine unchanged (Except.ok.inj done).symm ?_
      split
      · exact if_neg (fun equal => other equal.symm)
      · rfl
  · next matching =>
      have named : candidateMarket = received.1 := not_not.mp matching
      by_cases mine : poolId = key
      · have wrote : (if poolId = key then marketFor pda metadata received candidateMarket
            else none) =
            (decodeSerumMarket pda received.2 received.1 metadata.marketProgram).toOption.map
              (withMarket metadata) := by
          rw [if_pos mine, named]
          exact if_pos rfl
        rw [mine, found] at done
        dsimp only at done
        rw [same.2.1] at done
        rcases (onDecoded_eq_ok_iff _ _ _ _).mp done with ⟨refused, equal⟩ | ⟨market, decoded, equal⟩
        · refine unchanged equal ?_
          rw [wrote, refused]
          rfl
        · rw [wrote, decoded, equal, same.2.2]
          exact ⟨⟨_, HashMap.get_insert _ _ _, sameAmm_withMarket metadata market⟩,
            HashMap.get_insert _ _ _⟩
      · have silent : (if poolId = key then marketFor pda metadata received candidateMarket
            else none) = none := if_neg mine
        split at done
        · exact unchanged (Except.ok.inj done).symm silent
        · next held _ =>
            rcases (onDecoded_eq_ok_iff _ _ _ _).mp done with ⟨_, equal⟩ | ⟨market, _, equal⟩
            · exact unchanged equal silent
            · have left : HashMap.get (pending.insert poolId (withMarket held market)) key =
                  HashMap.get pending key := HashMap.get_insert_ne _ _ _ _ (Ne.symm mine)
              rw [equal, silent]
              exact ⟨⟨current, left.trans found, same⟩, left⟩

/-- One market account leaves a pool's entry as it is or puts the market into it. -/
theorem resolveMarket_spec (raydiumMarkets : HashMap Pubkey Pubkey)
    (pending next : HashMap Pubkey RaydiumMetadata) (received : Pubkey × Account)
    (done : resolveMarket pda raydiumMarkets pending received = .ok next) (key : Pubkey)
    (metadata : RaydiumMetadata)
    (named : HashMap.get raydiumMarkets key = some metadata.marketId)
    (staged : Staged pending key metadata) :
    Staged next key metadata ∧ HashMap.get next key =
      ((marketBy pda metadata received).map (withMarket metadata)).or
        (HashMap.get pending key) := by
  have step : ∀ entry ∈ raydiumMarkets.entries, ∀ state after, Staged state key metadata →
      resolvePool pda received state entry.1 entry.2 = .ok after →
        Staged after key metadata ∧ HashMap.get after key =
          (if entry.1 = key then marketFor pda metadata received entry.2 else none).or
            (HashMap.get state key) :=
    fun entry _ state after held stepped =>
      resolvePool_spec pda received state after entry.1 entry.2 key metadata held stepped
  have kept := foldlM_invariant _ (fun state => Staged state key metadata) _ _ _ staged
    (fun entry member state after held stepped => (step entry member state after held stepped).1)
    done
  have last := foldlM_last _ (fun state => Staged state key metadata)
    (fun state => HashMap.get state key)
    (fun entry => if entry.1 = key then marketFor pda metadata received entry.2 else none) _ _ _
    staged step done
  rw [HashMap.last_entry, named, Option.bind_some, marketFor_own] at last
  exact ⟨kept, last⟩

theorem resolvePool_absent (received : Pubkey × Account)
    (pending next : HashMap Pubkey RaydiumMetadata) (poolId candidateMarket key : Pubkey)
    (absent : HashMap.get pending key = none)
    (done : resolvePool pda received pending poolId candidateMarket = .ok next) :
    HashMap.get next key = none := by
  rw [resolvePool] at done
  split at done
  · rw [← Except.ok.inj done]
    exact absent
  · split at done
    · rw [← Except.ok.inj done]
      exact absent
    · next held found =>
        rcases (onDecoded_eq_ok_iff _ _ _ _).mp done with ⟨_, equal⟩ | ⟨market, _, equal⟩
        · rw [equal]
          exact absent
        · have other : key ≠ poolId := by
            intro same
            rw [same, found] at absent
            cases absent
          rw [equal]
          exact (HashMap.get_insert_ne _ _ _ _ other).trans absent

/-- The markets received, put into the staged entries. -/
theorem resolveMarkets_spec (network : Network) (staging : Staging)
    (pending : HashMap Pubkey RaydiumMetadata)
    (done : resolveMarkets pda network staging = .ok pending) (key : Pubkey)
    (named : HashMap.get staging.raydiumMarkets key =
      (HashMap.get staging.pendingRaydiumMetas key).map RaydiumMetadata.marketId) :
    HashMap.get pending key = (HashMap.get staging.pendingRaydiumMetas key).map
      (resolved pda (fetch network .markets (HashMap.values staging.raydiumMarkets))) := by
  cases found : HashMap.get staging.pendingRaydiumMetas key with
  | none =>
      exact foldlM_invariant _ (fun state => HashMap.get state key = none) _ _ _ found
        (fun received _ state next absent stepped =>
          foldlM_invariant _ (fun state => HashMap.get state key = none) _ _ _ absent
            (fun entry _ before after gone inner =>
              resolvePool_absent pda received before after entry.1 entry.2 key gone inner) stepped)
        done
  | some metadata =>
      rw [found, Option.map_some] at named
      have last := foldlM_last _ (fun state => Staged state key metadata)
        (fun state => HashMap.get state key)
        (fun received => (marketBy pda metadata received).map (withMarket metadata)) _ _ _
        ⟨metadata, found, rfl, rfl, fun _ => rfl⟩
        (fun received _ state next staged stepped =>
          resolveMarket_spec pda staging.raydiumMarkets state next received stepped key metadata
            named staged) done
      rw [found, ← List.map_filterMap, List.getLast?_map] at last
      rw [last, Option.map_some, resolved, marketOf]
      cases ((fetch network .markets (HashMap.values staging.raydiumMarkets)).filterMap
        (marketBy pda metadata)).getLast? with
      | none => rfl
      | some market => rfl

end Markets

/-! The cache behind the markets, and the balances. -/

theorem flushRaydiumMetas_get (pending : HashMap Pubkey RaydiumMetadata) (cache : PoolStateCache)
    (key : Pubkey) :
    (flushRaydiumMetas pending cache).get key =
      (cache.get key).map (fun pool =>
        { pool with raydiumMeta := (HashMap.get pending key).or pool.raydiumMeta }) := by
  have done := foldlM_ok (ε := Panic) (fun (state : PoolStateCache) (entry : Sigma fun _ => _) =>
    state.updateRaydiumMeta entry.1 entry.2) pending.entries cache
  cases cached : cache.get key with
  | none =>
      exact foldlM_invariant _ (fun state => state.get key = none) _ _ _ cached
        (by
          intro entry _ state next absent stepped
          rw [← Except.ok.inj stepped, PoolStateCache.updateRaydiumMeta, PoolStateCache.get_getMut]
          split
          · next same => rw [← same, absent, Option.map_none]
          · exact absent) done
  | some pool =>
      have last := foldlM_last _
        (fun state : PoolStateCache => ∃ held, state.get key = some held ∧
          ∀ metadata, { held with raydiumMeta := metadata } =
            { pool with raydiumMeta := metadata })
        (fun state => state.get key)
        (fun entry => if entry.1 = key then some { pool with raydiumMeta := some entry.2 } else none)
        _ _ _ ⟨pool, cached, fun _ => rfl⟩
        (by
          intro entry _ state next ⟨held, found, same⟩ stepped
          rw [← Except.ok.inj stepped, PoolStateCache.updateRaydiumMeta, PoolStateCache.get_getMut]
          by_cases mine : entry.1 = key
          · rw [if_pos mine.symm, if_pos mine, mine, found, Option.map_some, same]
            exact ⟨⟨_, rfl, fun _ => rfl⟩, rfl⟩
          · rw [if_neg (Ne.symm mine), if_neg mine]
            exact ⟨⟨held, found, same⟩, rfl⟩) done
      have written := HashMap.last_entry pending key
        (fun metadata => some { pool with raydiumMeta := some metadata })
      rw [written, cached] at last
      rw [Option.map_some]
      refine last.trans ?_
      cases HashMap.get pending key with
      | none => rfl
      | some metadata => rfl

theorem setVaultBalance_fixed (now : Instant) (cache : PoolStateCache) (amount : Nat)
    (vault : VaultType) : SameFixed cache (setVaultBalance now cache amount vault) := by
  cases vault with
  | poolA pool => exact sameFixed_getMut _ _ _ (fun _ _ => rfl)
  | poolB pool => exact sameFixed_getMut _ _ _ (fun _ _ => rfl)
  | marketA pool => exact sameFixed_getMut _ _ _ (fun _ _ => rfl)
  | marketB pool => exact sameFixed_getMut _ _ _ (fun _ _ => rfl)

theorem refreshBalance_fixed (now : Instant) (vaults : HashMap Pubkey VaultType)
    (cache : PoolStateCache) (received : Pubkey × Account) :
    SameFixed cache (refreshBalance now vaults cache received) := by
  rw [refreshBalance]
  split
  · exact setVaultBalance_fixed _ _ _ _
  · exact fun _ => rfl

theorem refreshBalances_fixed (network : Network) (now : Instant) (mapped : List MappedPool)
    (cache : PoolStateCache) : SameFixed cache (refreshBalances network now mapped cache) := by
  simp only [refreshBalances]
  generalize allVaults mapped cache = vaults
  induction fetch network .vaults vaults.keys generalizing cache with
  | nil => exact fun _ => rfl
  | cons received rest ih => exact (refreshBalance_fixed now vaults cache received).trans (ih _)

/-! The whole refresh. -/

/-- The accounts the fourth round brings in. -/
def marketAccounts (pda : Pda) (network : Network) (mapped : List MappedPool)
    (cache : PoolStateCache) : List (Pubkey × Account) :=
  match stagePools pda network mapped cache with
  | .ok staging => fetch network .markets (HashMap.values staging.raydiumMarkets)
  | .error _ => []

/-- The cache before the balances differs from the one at the start in the staged
metadata only, as far as the fixed parts go. -/
theorem refreshMetadata_ok (pda : Pda) (network : Network) (mapped : List MappedPool)
    (cache flushed : PoolStateCache)
    (done : refreshMetadata pda network mapped cache = .ok flushed) (key : Pubkey) :
    (flushed.get key).map fixedPart = (cache.get key).map (fun pool =>
      fixedPart { pool with
        raydiumMeta := ((stagedMeta pda mapped network cache key).map
          (resolved pda (marketAccounts pda network mapped cache))).or pool.raydiumMeta }) := by
  simp only [refreshMetadata, bind_eq_ok_iff] at done
  rcases done with ⟨staging, staged, binArrays, _, tickArrays, _, pending, resolves, same⟩
  rcases stagePools_spec pda mapped network cache staging staged with ⟨poolsFixed, entries⟩
  have fixed := (poolsFixed.trans (storeArrays_fixed storeBinArrays storeBinArrays_fixed binArrays
    staging.cache)).trans (storeArrays_fixed storeTickArrays storeTickArrays_fixed tickArrays _)
  have markets : fetch network .markets (HashMap.values staging.raydiumMarkets) =
      marketAccounts pda network mapped cache := by rw [marketAccounts, staged]
  have written := resolveMarkets_spec pda network staging pending resolves key
    (by rw [(entries key).1, (entries key).2])
  rw [(entries key).1, markets] at written
  rw [← Except.ok.inj same, flushRaydiumMetas_get, written]
  have whole := congrArg (Option.map (fun part => { part with
    raydiumMeta := ((stagedMeta pda mapped network cache key).map
      (resolved pda (marketAccounts pda network mapped cache))).or part.raydiumMeta })) (fixed key)
  rw [Option.map_map, Option.map_map] at whole
  rw [Option.map_map]
  exact whole

end Helios.PoolHydrator
