import Helios.PoolCache

/-! The pair index against the pools really cached. -/

namespace Helios.PairIndex

open Runs PoolStateCache

/-- A write through `get_mut` that leaves a pool's address and mints alone. -/
structure FieldUpdate where
  change : DexPool → DexPool
  keepsAddress : ∀ pool, (change pool).poolAddress = pool.poolAddress
  keepsTokenA : ∀ pool, (change pool).tokenA = pool.tokenA
  keepsTokenB : ∀ pool, (change pool).tokenB = pool.tokenB

inductive CacheOp where
  | upsert (pool : DexPool)
  | remove (address : Pubkey)
  | updateReserveA (now : Instant) (address : Pubkey) (amount : Nat)
  | updateReserveB (now : Instant) (address : Pubkey) (amount : Nat)
  | updateRaydiumMeta (address : Pubkey) (metadata : RaydiumMetadata)
  | applySwapDelta (now : Instant) (address : Pubkey) (amountIn amountOut : Nat) (aToB : Bool)
  | updateReserveByVault (now : Instant) (address : Pubkey) (isVaultA : Bool) (balance : Nat)
  | getMut (address : Pubkey) (update : FieldUpdate)

section

variable {F : Type} [FloatArith F] (powf : F → F → F)

def applyOp (cache : PoolStateCache) : CacheOp → PoolStateCache
  | .upsert pool => cache.upsert pool
  | .remove address => cache.remove address
  | .updateReserveA now address amount => cache.updateReserveA now address amount
  | .updateReserveB now address amount => cache.updateReserveB now address amount
  | .updateRaydiumMeta address metadata => cache.updateRaydiumMeta address metadata
  | .applySwapDelta now address amountIn amountOut aToB =>
      cache.applySwapDelta powf now address amountIn amountOut aToB
  | .updateReserveByVault now address isVaultA balance =>
      (cache.updateReserveByVault now address isVaultA balance).1
  | .getMut address update => cache.getMut address update.change

end

/-- The unordered pair of mints a pool trades. -/
def mints (pool : DexPool) : Sym2 Pubkey := s(pool.tokenA, pool.tokenB)

/-- For all mints the index returns the cached pools on that unordered pair, each
once. -/
def IndexExact (cache : PoolStateCache) : Prop :=
  ∀ a b, (cache.poolsForPair a b).Nodup ∧
    ∀ pool, pool ∈ cache.poolsForPair a b ↔
      (∃ address, cache.get address = some pool) ∧ mints pool = s(a, b)

/-- No address is ever inserted under two unordered pairs. -/
def OnePairPerAddress (ops : List CacheOp) : Prop :=
  ∀ first second, CacheOp.upsert first ∈ ops → CacheOp.upsert second ∈ ops →
    first.poolAddress = second.poolAddress → mints first = mints second

theorem canonicalPair_eq_iff (a b c d : Pubkey) :
    canonicalPair a b = canonicalPair c d ↔ s(a, b) = s(c, d) := by
  rw [Sym2.eq_iff]
  unfold canonicalPair
  constructor
  · intro same
    split at same
    · split at same
      · exact Or.inl (Prod.mk.inj same)
      · exact Or.inr (Prod.mk.inj same)
    · split at same
      · have sides := Prod.mk.inj same
        exact Or.inr ⟨sides.2, sides.1⟩
      · have sides := Prod.mk.inj same
        exact Or.inl ⟨sides.2, sides.1⟩
  · intro sides
    rcases sides with ⟨rfl, rfl⟩ | ⟨rfl, rfl⟩
    · rfl
    · rcases lt_trichotomy a b with less | rfl | more
      · rw [if_pos less, if_neg (not_lt.mpr less.le)]
      · rfl
      · rw [if_neg (not_lt.mpr more.le), if_pos more]

theorem bucket_upsert (cache : PoolStateCache) (pool : DexPool) (pair : Pubkey × Pubkey) :
    (cache.upsert pool).bucket pair =
      if pair = canonicalPair pool.tokenA pool.tokenB then
        (cache.bucket pair).filter (fun a => decide (a ≠ pool.poolAddress)) ++ [pool.poolAddress]
      else cache.bucket pair := by
  by_cases same : pair = canonicalPair pool.tokenA pool.tokenB
  · subst same
    rw [if_pos rfl]
    simp [bucket, upsert]
  · rw [if_neg same]
    simp only [bucket, upsert]
    rw [HashMap.get_insert_ne _ _ _ _ same]

theorem get_upsert (cache : PoolStateCache) (pool : DexPool) (address : Pubkey) :
    (cache.upsert pool).get address =
      if address = pool.poolAddress then some pool else cache.get address := by
  by_cases same : address = pool.poolAddress
  · subst same
    rw [if_pos rfl]
    exact HashMap.get_insert cache.inner _ pool
  · rw [if_neg same]
    exact HashMap.get_insert_ne cache.inner _ _ pool same

/-- Every operation but an insertion leaves the index alone and can only drop a
pool or rewrite fields other than its address and mints. -/
structure KeepsKeys (before after : PoolStateCache) : Prop where
  index : after.pairIndex = before.pairIndex
  pools : ∀ address pool, after.get address = some pool →
    ∃ old, before.get address = some old ∧ old.poolAddress = pool.poolAddress ∧
      mints old = mints pool

theorem keepsKeys_refl (cache : PoolStateCache) : KeepsKeys cache cache :=
  ⟨rfl, fun _ pool found => ⟨pool, found, rfl, rfl⟩⟩

theorem keepsKeys_bump (before after : PoolStateCache) (keeps : KeepsKeys before after) :
    KeepsKeys before after.bumpSwapGeneration := ⟨keeps.index, keeps.pools⟩

theorem keepsKeys_getMut (cache : PoolStateCache) (address : Pubkey) (update : FieldUpdate) :
    KeepsKeys cache (cache.getMut address update.change) := by
  refine ⟨rfl, ?_⟩
  intro other pool found
  simp only [PoolStateCache.get, PoolStateCache.getMut, HashMap.get_modify] at found
  by_cases same : other = address
  · subst same
    rw [if_pos rfl] at found
    obtain ⟨old, cached, rfl⟩ := Option.map_eq_some_iff.mp found
    refine ⟨old, cached, (update.keepsAddress old).symm, ?_⟩
    rw [mints, mints, update.keepsTokenA, update.keepsTokenB]
  · rw [if_neg same] at found
    exact ⟨pool, found, rfl, rfl⟩

theorem keepsKeys_remove (cache : PoolStateCache) (address : Pubkey) :
    KeepsKeys cache (cache.remove address) := by
  refine ⟨rfl, ?_⟩
  intro other pool found
  simp only [PoolStateCache.get, PoolStateCache.remove, HashMap.get_erase] at found
  split at found
  · cases found
  · exact ⟨pool, found, rfl, rfl⟩

section

variable {F : Type} [FloatArith F] (powf : F → F → F)

def reserveAUpdate (now : Instant) (amount : Nat) : FieldUpdate :=
  ⟨fun pool => pool.updateReserveA now amount, fun _ => rfl, fun _ => rfl, fun _ => rfl⟩

def reserveBUpdate (now : Instant) (amount : Nat) : FieldUpdate :=
  ⟨fun pool => pool.updateReserveB now amount, fun _ => rfl, fun _ => rfl, fun _ => rfl⟩

def raydiumMetaUpdate (metadata : RaydiumMetadata) : FieldUpdate :=
  ⟨fun pool => { pool with raydiumMeta := some metadata }, fun _ => rfl, fun _ => rfl,
    fun _ => rfl⟩

theorem applySwapDelta_keys (pool : DexPool) (now : Instant) (amountIn amountOut : Nat)
    (aToB : Bool) :
    (pool.applySwapDelta powf now amountIn amountOut aToB).poolAddress = pool.poolAddress ∧
    (pool.applySwapDelta powf now amountIn amountOut aToB).tokenA = pool.tokenA ∧
    (pool.applySwapDelta powf now amountIn amountOut aToB).tokenB = pool.tokenB := by
  unfold DexPool.applySwapDelta
  cases aToB with
  | false =>
      by_cases whirlpool : pool.dexType = .orcaWhirlpool
      · simp [whirlpool]
      · simp [whirlpool]
  | true =>
      by_cases whirlpool : pool.dexType = .orcaWhirlpool
      · simp [whirlpool]
      · simp [whirlpool]

def swapDeltaUpdate (now : Instant) (amountIn amountOut : Nat) (aToB : Bool) : FieldUpdate :=
  ⟨fun pool => pool.applySwapDelta powf now amountIn amountOut aToB,
    fun pool => (applySwapDelta_keys powf pool now amountIn amountOut aToB).1,
    fun pool => (applySwapDelta_keys powf pool now amountIn amountOut aToB).2.1,
    fun pool => (applySwapDelta_keys powf pool now amountIn amountOut aToB).2.2⟩

theorem updateReserveByVault_keys (pool : DexPool) (now : Instant) (isVaultA : Bool)
    (balance : Nat) :
    (pool.updateReserveByVault now isVaultA balance).poolAddress = pool.poolAddress ∧
    (pool.updateReserveByVault now isVaultA balance).tokenA = pool.tokenA ∧
    (pool.updateReserveByVault now isVaultA balance).tokenB = pool.tokenB := by
  unfold DexPool.updateReserveByVault
  cases isVaultA with
  | false =>
      by_cases same : pool.reserveB = balance
      · simp [same]
      · simp [same, DexPool.updateReserveB]
  | true =>
      by_cases same : pool.reserveA = balance
      · simp [same]
      · simp [same, DexPool.updateReserveA]

def vaultUpdate (now : Instant) (isVaultA : Bool) (balance : Nat) : FieldUpdate :=
  ⟨fun pool => pool.updateReserveByVault now isVaultA balance,
    fun pool => (updateReserveByVault_keys pool now isVaultA balance).1,
    fun pool => (updateReserveByVault_keys pool now isVaultA balance).2.1,
    fun pool => (updateReserveByVault_keys pool now isVaultA balance).2.2⟩

/-- What a step can do: an insertion, or something that keeps keys. -/
theorem applyOp_cases (cache : PoolStateCache) (op : CacheOp) :
    (∃ pool, op = .upsert pool) ∨ KeepsKeys cache (applyOp powf cache op) := by
  cases op with
  | upsert pool => exact Or.inl ⟨pool, rfl⟩
  | remove address => exact Or.inr (keepsKeys_remove cache address)
  | updateReserveA now address amount =>
      exact Or.inr (keepsKeys_getMut cache address (reserveAUpdate now amount))
  | updateReserveB now address amount =>
      exact Or.inr (keepsKeys_getMut cache address (reserveBUpdate now amount))
  | updateRaydiumMeta address metadata =>
      exact Or.inr (keepsKeys_getMut cache address (raydiumMetaUpdate metadata))
  | applySwapDelta now address amountIn amountOut aToB =>
      exact Or.inr (keepsKeys_bump _ _ (keepsKeys_getMut cache address
        (swapDeltaUpdate powf now amountIn amountOut aToB)))
  | updateReserveByVault now address isVaultA balance =>
      right
      rw [applyOp, PoolStateCache.updateReserveByVault]
      cases cache.get address with
      | none => exact keepsKeys_refl cache
      | some pool =>
          dsimp only
          by_cases same : (if isVaultA = true then pool.reserveA else pool.reserveB) = balance
          · rw [if_pos same]
            exact keepsKeys_refl cache
          · rw [if_neg same]
            exact keepsKeys_bump _ _ (keepsKeys_getMut cache address
              (vaultUpdate now isVaultA balance))
  | getMut address update => exact Or.inr (keepsKeys_getMut cache address update)

theorem keepsKeys_bucket (before after : PoolStateCache) (keeps : KeepsKeys before after)
    (pair : Pubkey × Pubkey) : after.bucket pair = before.bucket pair := by
  rw [bucket, bucket, keeps.index]

/-- What holds of a cache reached by running the given operations. The last
insertion of an address names its pair; a bucket may name addresses long gone. -/
structure Coherent (ops : List CacheOp) (cache : PoolStateCache) : Prop where
  cached : ∀ address pool, cache.get address = some pool → pool.poolAddress = address ∧
    address ∈ cache.bucket (canonicalPair pool.tokenA pool.tokenB) ∧
    ∃ inserted, CacheOp.upsert inserted ∈ ops ∧ inserted.poolAddress = address ∧
      mints inserted = mints pool
  indexed : ∀ pair address, address ∈ cache.bucket pair →
    ∃ inserted, CacheOp.upsert inserted ∈ ops ∧ inserted.poolAddress = address ∧
      canonicalPair inserted.tokenA inserted.tokenB = pair
  distinct : ∀ pair, (cache.bucket pair).Nodup

theorem coherent_new (ops : List CacheOp) : Coherent ops PoolStateCache.new := by
  have noBucket : ∀ pair, PoolStateCache.new.bucket pair = [] := by
    intro pair
    simp [bucket, PoolStateCache.new]
  refine ⟨?_, ?_, ?_⟩
  · intro address pool found
    simp [PoolStateCache.get, PoolStateCache.new] at found
  · intro pair address member
    rw [noBucket] at member
    cases member
  · intro pair
    rw [noBucket]
    exact List.nodup_nil

theorem mem_bucket_upsert (cache : PoolStateCache) (pool : DexPool) (pair : Pubkey × Pubkey)
    (address : Pubkey) :
    address ∈ (cache.upsert pool).bucket pair ↔
      address ∈ cache.bucket pair ∨
        (pair = canonicalPair pool.tokenA pool.tokenB ∧ address = pool.poolAddress) := by
  rw [bucket_upsert]
  by_cases same : pair = canonicalPair pool.tokenA pool.tokenB
  · rw [if_pos same, List.mem_append, List.mem_filter, List.mem_singleton]
    by_cases self : address = pool.poolAddress
    · simp [self, same]
    · simp [self]
  · rw [if_neg same]
    simp [same]

theorem coherent_upsert (ops : List CacheOp) (cache : PoolStateCache) (pool : DexPool)
    (member : CacheOp.upsert pool ∈ ops) (coherent : Coherent ops cache) :
    Coherent ops (cache.upsert pool) := by
  refine ⟨?_, ?_, ?_⟩
  · intro address other found
    rw [get_upsert] at found
    by_cases same : address = pool.poolAddress
    · rw [if_pos same] at found
      obtain rfl := Option.some.inj found
      refine ⟨same.symm, ?_, pool, member, same.symm, rfl⟩
      rw [mem_bucket_upsert]
      exact Or.inr ⟨rfl, same⟩
    · rw [if_neg same] at found
      have old := coherent.cached address other found
      refine ⟨old.1, ?_, old.2.2⟩
      rw [mem_bucket_upsert]
      exact Or.inl old.2.1
  · intro pair address inside
    rw [mem_bucket_upsert] at inside
    rcases inside with inside | ⟨rfl, rfl⟩
    · exact coherent.indexed pair address inside
    · exact ⟨pool, member, rfl, rfl⟩
  · intro pair
    rw [bucket_upsert]
    split
    · apply List.Nodup.append ((coherent.distinct pair).filter _) (List.nodup_singleton _)
      intro address kept self
      rw [List.mem_singleton] at self
      rw [List.mem_filter, decide_eq_true_eq] at kept
      exact kept.2 self
    · exact coherent.distinct pair

theorem coherent_keepsKeys (ops : List CacheOp) (before after : PoolStateCache)
    (keeps : KeepsKeys before after) (coherent : Coherent ops before) : Coherent ops after := by
  have sameBucket := keepsKeys_bucket before after keeps
  refine ⟨?_, ?_, ?_⟩
  · intro address pool found
    obtain ⟨old, cachedOld, sameAddress, sameMints⟩ := keeps.pools address pool found
    obtain ⟨home, inBucket, inserted, member, at_, mintsOld⟩ :=
      coherent.cached address old cachedOld
    have samePair : canonicalPair pool.tokenA pool.tokenB = canonicalPair old.tokenA old.tokenB :=
      (canonicalPair_eq_iff _ _ _ _).mpr sameMints.symm
    refine ⟨sameAddress.symm.trans home, ?_, inserted, member, at_, mintsOld.trans sameMints⟩
    rw [sameBucket, samePair]
    exact inBucket
  · intro pair address inside
    rw [sameBucket] at inside
    exact coherent.indexed pair address inside
  · intro pair
    rw [sameBucket]
    exact coherent.distinct pair

theorem coherent_step (ops : List CacheOp) (cache : PoolStateCache) (op : CacheOp)
    (member : op ∈ ops) (coherent : Coherent ops cache) :
    Coherent ops (applyOp powf cache op) := by
  rcases applyOp_cases powf cache op with ⟨pool, rfl⟩ | keeps
  · exact coherent_upsert ops cache pool member coherent
  · exact coherent_keepsKeys ops cache _ keeps coherent

theorem coherent_run (ops done : List CacheOp) (among : ∀ op ∈ done, op ∈ ops) :
    Coherent ops (run (applyOp powf) PoolStateCache.new done) := by
  apply run_invariant (applyOp powf) (Coherent ops) _ _ (coherent_new ops)
  intro pair member coherent
  exact coherent_step powf ops pair.1 pair.2 (among _ (trace_input _ _ _ pair member)) coherent

theorem mem_poolsForPair (cache : PoolStateCache) (a b : Pubkey) (pool : DexPool) :
    pool ∈ cache.poolsForPair a b ↔
      ∃ address ∈ cache.bucket (canonicalPair a b), cache.get address = some pool := by
  rw [poolsForPair, List.mem_filterMap]

theorem indexExact_of_coherent (ops : List CacheOp) (onePair : OnePairPerAddress ops)
    (cache : PoolStateCache) (coherent : Coherent ops cache) : IndexExact cache := by
  intro a b
  constructor
  · apply (coherent.distinct (canonicalPair a b)).filterMap
    intro first second pool foundFirst foundSecond
    exact (coherent.cached first pool foundFirst).1.symm.trans
      (coherent.cached second pool foundSecond).1
  · intro pool
    rw [mem_poolsForPair]
    constructor
    · rintro ⟨address, inside, found⟩
      refine ⟨⟨address, found⟩, ?_⟩
      obtain ⟨first, memberFirst, atFirst, pairFirst⟩ := coherent.indexed _ address inside
      obtain ⟨-, -, second, memberSecond, atSecond, mintsSecond⟩ :=
        coherent.cached address pool found
      have same := onePair first second memberFirst memberSecond (atFirst.trans atSecond.symm)
      calc mints pool = mints second := mintsSecond.symm
        _ = mints first := same.symm
        _ = s(a, b) := (canonicalPair_eq_iff _ _ _ _).mp pairFirst
    · rintro ⟨⟨address, found⟩, sameMints⟩
      refine ⟨address, ?_, found⟩
      rw [← (canonicalPair_eq_iff _ _ _ _).mpr sameMints]
      exact (coherent.cached address pool found).2.1

/-- An address never leaves a bucket it was put in. -/
theorem bucket_step (cache : PoolStateCache) (op : CacheOp) (pair : Pubkey × Pubkey)
    (address : Pubkey) (inside : address ∈ cache.bucket pair) :
    address ∈ (applyOp powf cache op).bucket pair := by
  rcases applyOp_cases powf cache op with ⟨pool, rfl⟩ | keeps
  · exact (mem_bucket_upsert cache pool pair address).mpr (Or.inl inside)
  · rw [keepsKeys_bucket _ _ keeps]
    exact inside

theorem bucket_run (cache : PoolStateCache) (ops : List CacheOp) (pair : Pubkey × Pubkey)
    (address : Pubkey) (inside : address ∈ cache.bucket pair) :
    address ∈ (run (applyOp powf) cache ops).bucket pair := by
  apply run_invariant (applyOp powf) (fun reached => address ∈ reached.bucket pair) _ _ inside
  intro visited _ still
  exact bucket_step powf visited.1 visited.2 pair address still

/-- After a second insertion the first pair's bucket still names the pool. -/
theorem reinserted_pool_found (before between : List CacheOp) (first second : DexPool)
    (sameAddress : first.poolAddress = second.poolAddress) :
    second ∈ (run (applyOp powf) PoolStateCache.new
      (before ++ .upsert first :: (between ++ [.upsert second]))).poolsForPair
        first.tokenA first.tokenB := by
  rw [run_append, run_cons, run_append, run_cons, run_nil, mem_poolsForPair]
  refine ⟨second.poolAddress, ?_, ?_⟩
  · apply bucket_step
    apply bucket_run
    apply (mem_bucket_upsert _ _ _ _).mpr
    exact Or.inr ⟨rfl, sameAddress.symm⟩
  · rw [applyOp, get_upsert, if_pos rfl]

theorem reinserted_same_mints (ops before between after : List CacheOp) (first second : DexPool)
    (split : ops = before ++ .upsert first :: (between ++ .upsert second :: after))
    (sameAddress : first.poolAddress = second.poolAddress)
    (exactly : ∀ done, done <+: ops →
      IndexExact (run (applyOp powf) PoolStateCache.new done)) :
    mints second = mints first := by
  have reached := exactly (before ++ .upsert first :: (between ++ [.upsert second])) (by
    refine ⟨after, ?_⟩
    rw [split]
    simp)
  have found := reinserted_pool_found powf before between first second sameAddress
  exact ((reached first.tokenA first.tokenB).2 second).mp found |>.2

/-- Every cache a run passes through answers pair queries exactly if and only if
no address is inserted under two pairs. -/
theorem index_exact_throughout_iff (ops : List CacheOp) :
    (∀ done, done <+: ops → IndexExact (run (applyOp powf) PoolStateCache.new done)) ↔
      OnePairPerAddress ops := by
  constructor
  · intro exactly first second memberFirst memberSecond sameAddress
    obtain ⟨before, after, splitFirst⟩ := List.append_of_mem memberFirst
    rw [splitFirst, List.mem_append, List.mem_cons] at memberSecond
    rcases memberSecond with earlier | same | later
    · obtain ⟨start, between, splitSecond⟩ := List.append_of_mem earlier
      apply reinserted_same_mints powf ops start between after second first _ sameAddress.symm
        exactly
      rw [splitFirst, splitSecond]
      simp
    · rw [CacheOp.upsert.inj same]
    · obtain ⟨between, stop, splitSecond⟩ := List.append_of_mem later
      have result := reinserted_same_mints powf ops before between stop first second
        (by rw [splitFirst, splitSecond]) sameAddress exactly
      exact result.symm
  · intro onePair done isPrefix
    apply indexExact_of_coherent ops onePair
    apply coherent_run powf ops done
    intro op member
    exact isPrefix.subset member

end

/-- A pool as a graduation event caches it, with the mints it was told. -/
def graduatedPool (tokenA tokenB : Pubkey) : DexPool :=
  { poolAddress := default, dexType := .pumpSwap, tokenA := tokenA, tokenB := tokenB
    decimalsA := 9, decimalsB := 6, reserveA := 79000000000, reserveB := 206000000000
    reserveAOptimistic := 0, reserveBOptimistic := 0, lastShredUpdate := 0
    poolVaultABalance := 0, poolVaultBBalance := 0
    marketVaultABalance := 0, marketVaultBBalance := 0, lastUpdated := 0, feeBps := 25
    raydiumMeta := none, orcaMeta := none, meteoraMeta := none }

/-- First the guessed pair WSOL/USDC, then the pair WSOL/USDT. -/
def regraduation : List CacheOp :=
  [.upsert (graduatedPool wsol usdc), .upsert (graduatedPool wsol usdt)]

/-- The query for WSOL/USDC answers with a pool that trades WSOL/USDT. -/
theorem reinserted_pool_answers_old_pair :
    graduatedPool wsol usdt ∈ (run (applyOp (fun base _ => base : ℚ → ℚ → ℚ))
      PoolStateCache.new regraduation).poolsForPair wsol usdc ∧
    ¬ IndexExact (run (applyOp (fun base _ => base : ℚ → ℚ → ℚ)) PoolStateCache.new
      regraduation) := by
  have found : graduatedPool wsol usdt ∈ (run (applyOp (fun base _ => base : ℚ → ℚ → ℚ))
      PoolStateCache.new regraduation).poolsForPair wsol usdc :=
    reinserted_pool_found (fun base _ => base : ℚ → ℚ → ℚ) [] []
      (graduatedPool wsol usdc) (graduatedPool wsol usdt) (by simp only [graduatedPool])
  refine ⟨found, ?_⟩
  intro exactly
  have sameMints : s(wsol, usdt) = s(wsol, usdc) := (((exactly wsol usdc).2 _).mp found).2
  have different : usdt ≠ usdc := by decide +kernel
  exact different (Sym2.congr_right.mp sameMints)

end Helios.PairIndex
