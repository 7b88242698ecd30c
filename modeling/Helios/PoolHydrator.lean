import Helios.AccountDecoders
import Helios.PoolCache

/-! One refresh of the pool cache over RPC. Accounts are asked for a hundred at a
time, and any request may fail. The pauses between requests, the logs and the count
of pools at the end are left out. -/

namespace Helios

namespace PoolHydrator

open Machine

/-- An entry of the pools file, its texts as the keys they parse to. -/
structure MappedPool where
  poolId : Option Pubkey
  vaultA : Option Pubkey
  vaultB : Option Pubkey

/-! Requests. -/

abbrev Reply := List (Option Account)

inductive RpcError where
  /-- The node cannot be reached. -/
  | connection
  | other
  deriving DecidableEq

/-- The answers of the two nodes to the first and the second try of a request. -/
structure Rpc where
  primary : Nat → List Pubkey → Except RpcError Reply
  fallback : Option (Nat → List Pubkey → Except RpcError Reply)

/-- The second try of the first node is left out when it cannot be reached. -/
def getMultipleAccountsRetry (rpc : Rpc) (keys : List Pubkey) : Option Reply :=
  match rpc.primary 0 keys with
  | .ok accounts => some accounts
  | .error failed =>
      let retried := if failed = .connection then none else (rpc.primary 1 keys).toOption
      match retried, rpc.fallback with
      | some accounts, _ => some accounts
      | none, none => none
      | none, some fallback =>
          match fallback 0 keys with
          | .ok accounts => some accounts
          | .error _ => (fallback 1 keys).toOption

/-- The five rounds of requests of a refresh. -/
inductive Stage where
  | pools
  | binArrays
  | tickArrays
  | markets
  | vaults
  deriving DecidableEq

/-- How the nodes behave in a refresh, for each round and each request in it. -/
abbrev Network := Stage → Nat → Rpc

/-- `keys.chunks(size)`, the first argument a bound on the number of chunks. -/
def chunks (size : Nat) : Nat → List Pubkey → List (List Pubkey)
  | _, [] => []
  | 0, _ => []
  | fuel + 1, keys => keys.take size :: chunks size fuel (keys.drop size)

/-- The accounts one request brings in. -/
def accountsOf (rpc : Rpc) (keys : List Pubkey) : List (Pubkey × Account) :=
  match getMultipleAccountsRetry rpc keys with
  | none => []
  | some accounts =>
      (keys.zip accounts).filterMap (fun (key, maybeAcc) => maybeAcc.map (fun acc => (key, acc)))

/-- The accounts a round brings in, in the order they are worked through. -/
def fetch (network : Network) (stage : Stage) (keys : List Pubkey) : List (Pubkey × Account) :=
  (chunks 100 keys.length keys).zipIdx.flatMap
    (fun (chunk, place) => accountsOf (network stage place) chunk)

/-! The first round: the pools themselves. -/

def poolKeys (mapped : List MappedPool) : List Pubkey := mapped.filterMap MappedPool.poolId

/-- An entry whose three keys parse. -/
def MappedPool.keys (entry : MappedPool) : Option (Pubkey × Pubkey × Pubkey) := do
  let pool ← entry.poolId
  let vaultA ← entry.vaultA
  let vaultB ← entry.vaultB
  return (pool, vaultA, vaultB)

def expectedVaults (mapped : List MappedPool) : HashMap Pubkey (Pubkey × Pubkey) :=
  (mapped.filterMap MappedPool.keys).foldl (fun expected (pool, vaults) =>
    expected.insert pool vaults) HashMap.empty

/-- The cache and the local maps while the first round is worked through. -/
structure Staging where
  cache : PoolStateCache
  raydiumMarkets : HashMap Pubkey Pubkey
  pendingRaydiumMetas : HashMap Pubkey RaydiumMetadata
  meteoraBinArrayRequests : HashMap Pubkey (List (Int × Pubkey))
  orcaTickArrayRequests : HashMap Pubkey (List (Int × Pubkey))

/-- The process has stopped on a slice out of bounds. -/
inductive Panic where
  | outOfBounds
  deriving DecidableEq

/-- What is done with a decoded account, if it is one. -/
def onDecoded {α β : Type} (result : Decoded α) (unchanged : β) (use : α → β) : Except Panic β :=
  match result with
  | .panicked => .error .outOfBounds
  | .refused => .ok unchanged
  | .value decoded => .ok (use decoded)

section Refresh

variable (pda : Pda) (network : Network) (now : Instant) (mapped : List MappedPool)

def stageRaydium (staging : Staging) (pubkey : Pubkey) (acc : Account) : Except Panic Staging :=
  match HashMap.get (expectedVaults mapped) pubkey with
  | none => .ok staging
  | some (expectedA, expectedB) =>
      onDecoded (decodeRaydiumAmm pda acc DexPrograms.raydiumAmmV4 expectedA expectedB) staging
        (fun metadata => { staging with
          raydiumMarkets := staging.raydiumMarkets.insert pubkey metadata.marketId
          pendingRaydiumMetas := staging.pendingRaydiumMetas.insert pubkey metadata })

def stageOrca (staging : Staging) (pubkey : Pubkey) (acc : Account) : Except Panic Staging :=
  onDecoded (decodeOrcaWhirlpool acc) staging (fun metadata =>
    if metadata.tickSpacing = 0 then staging
    else
      let requests := (Orca.tickArrayStartIndexes metadata.tickCurrentIndex metadata.tickSpacing
        8).map (fun start => (start, deriveOrcaTickArrayPda pda pubkey start))
      { staging with
        orcaTickArrayRequests := staging.orcaTickArrayRequests.insert pubkey requests
        cache := staging.cache.getMut pubkey
          (fun pool => { pool with orcaMeta := some metadata }) })

def stageMeteora (staging : Staging) (pubkey : Pubkey) (acc : Account) : Except Panic Staging :=
  onDecoded (decodeMeteoraDlmm acc) staging (fun (metadata, bitmap) =>
    let requests := (Meteora.candidateBinArrayIndices metadata.activeId bitmap).map
      (fun index => (index, Meteora.deriveBinArrayPda pda pubkey index))
    { staging with
      meteoraBinArrayRequests := staging.meteoraBinArrayRequests.insert pubkey requests
      cache := staging.cache.getMut pubkey
        (fun pool => { pool with meteoraMeta := some metadata }) })

/-- An account is decoded by the kind of its cached pool. -/
def stagePool (staging : Staging) (received : Pubkey × Account) : Except Panic Staging :=
  match staging.cache.get received.1 with
  | none => .ok staging
  | some pool =>
      if pool.dexType = .raydiumAmmV4 ∧ 752 ≤ received.2.length then
        stageRaydium pda mapped staging received.1 received.2
      else if pool.dexType = .orcaWhirlpool then stageOrca pda staging received.1 received.2
      else if pool.dexType = .meteoraDlmm then stageMeteora pda staging received.1 received.2
      else .ok staging

def stagePools (cache : PoolStateCache) : Except Panic Staging :=
  (fetch network .pools (poolKeys mapped)).foldlM (stagePool pda mapped)
    ⟨cache, HashMap.empty, HashMap.empty, HashMap.empty, HashMap.empty⟩

end Refresh

/-! The second and the third round: the arrays of Meteora and Orca pools. -/

section Arrays

variable {A : Type}

/-- The pool and the index each requested address stands for; the last request of
an address wins. -/
def requestedBy (requests : HashMap Pubkey (List (Int × Pubkey))) :
    HashMap Pubkey (Pubkey × Int) :=
  (requests.entries.flatMap (fun ⟨pool, wanted⟩ =>
    wanted.map (fun (index, address) => (address, pool, index)))).foldl
      (fun map (address, target) => map.insert address target) HashMap.empty

def requestedKeys (requests : HashMap Pubkey (List (Int × Pubkey))) : List Pubkey :=
  (requests.entries.flatMap (fun ⟨_, wanted⟩ => wanted.map Prod.snd)).foldl
    (fun seen address => if address ∈ seen then seen else seen ++ [address]) []

/-- The decoded arrays by pool and index. -/
def collectArrays (decode : Account → Pubkey → Decoded A)
    (targets : HashMap Pubkey (Pubkey × Int)) (received : List (Pubkey × Account)) :
    Except Panic (HashMap Pubkey (HashMap Int A)) :=
  received.foldlM (fun byPool (address, acc) =>
    match HashMap.get targets address with
    | none => .ok byPool
    | some (pool, index) =>
        onDecoded (decode acc pool) byPool (fun decoded =>
          byPool.insert pool
            (((HashMap.get byPool pool).getD HashMap.empty).insert index decoded)))
    HashMap.empty

/-- Every pool with new arrays has them put in place of its old ones. -/
def storeArrays (store : HashMap Int A → DexPool → DexPool)
    (byPool : HashMap Pubkey (HashMap Int A)) (cache : PoolStateCache) : PoolStateCache :=
  byPool.entries.foldl (fun cache ⟨pool, arrays⟩ => cache.getMut pool (store arrays)) cache

end Arrays

def storeBinArrays (binArrays : HashMap Int Meteora.MeteoraBinArray) (pool : DexPool) : DexPool :=
  { pool with meteoraMeta := pool.meteoraMeta.map (fun held => { held with binArrays }) }

def storeTickArrays (tickArrays : HashMap Int Orca.OrcaTickArray) (pool : DexPool) : DexPool :=
  { pool with orcaMeta := pool.orcaMeta.map (fun held => { held with tickArrays }) }

/-! The fourth round: the markets of the decoded Raydium pools. -/

def withMarket (metadata : RaydiumMetadata) (market : SerumMarket) : RaydiumMetadata :=
  { metadata with
    marketBids := market.marketBids
    marketAsks := market.marketAsks
    marketEventQueue := market.marketEventQueue
    marketBaseVault := market.marketBaseVault
    marketQuoteVault := market.marketQuoteVault
    marketVaultSigner := market.marketVaultSigner }

/-- One market account for one pool, if the pool names it. -/
def resolvePool (pda : Pda) (received : Pubkey × Account)
    (pending : HashMap Pubkey RaydiumMetadata) (poolId candidateMarket : Pubkey) :
    Except Panic (HashMap Pubkey RaydiumMetadata) :=
  if candidateMarket ≠ received.1 then .ok pending
  else
    match HashMap.get pending poolId with
    | none => .ok pending
    | some metadata =>
        onDecoded (decodeSerumMarket pda received.2 received.1 metadata.marketProgram) pending
          (fun market => pending.insert poolId (withMarket metadata market))

def resolveMarket (pda : Pda) (raydiumMarkets : HashMap Pubkey Pubkey)
    (pending : HashMap Pubkey RaydiumMetadata) (received : Pubkey × Account) :
    Except Panic (HashMap Pubkey RaydiumMetadata) :=
  raydiumMarkets.entries.foldlM
    (fun pending entry => resolvePool pda received pending entry.1 entry.2) pending

def resolveMarkets (pda : Pda) (network : Network) (staging : Staging) :
    Except Panic (HashMap Pubkey RaydiumMetadata) :=
  (fetch network .markets (HashMap.values staging.raydiumMarkets)).foldlM
    (resolveMarket pda staging.raydiumMarkets) staging.pendingRaydiumMetas

/-- The staged metadata goes to the cache, resolved or not. -/
def flushRaydiumMetas (pending : HashMap Pubkey RaydiumMetadata) (cache : PoolStateCache) :
    PoolStateCache :=
  pending.entries.foldl (fun cache ⟨pubkey, metadata⟩ => cache.updateRaydiumMeta pubkey metadata)
    cache

/-! The last round: the balances. -/

inductive VaultType where
  | poolA (pool : Pubkey)
  | poolB (pool : Pubkey)
  | marketA (pool : Pubkey)
  | marketB (pool : Pubkey)
  deriving DecidableEq

/-- The placeholder key is no vault. -/
def claim (key : Pubkey) (vault : VaultType) : List (Pubkey × VaultType) :=
  if key ≠ default then [(key, vault)] else []

def mappedClaims (mapped : List MappedPool) : List (Pubkey × VaultType) :=
  (mapped.filterMap MappedPool.keys).flatMap (fun (pool, vaultA, vaultB) =>
    claim vaultA (.poolA pool) ++ claim vaultB (.poolB pool))

def raydiumClaims (poolAddress : Pubkey) (metadata : RaydiumMetadata) :
    List (Pubkey × VaultType) :=
  claim metadata.vaultA (.poolA poolAddress) ++ claim metadata.vaultB (.poolB poolAddress) ++
    claim metadata.marketBaseVault (.marketA poolAddress) ++
    claim metadata.marketQuoteVault (.marketB poolAddress)

def poolClaims (pool : DexPool) : List (Pubkey × VaultType) :=
  pool.raydiumMeta.toList.flatMap (raydiumClaims pool.poolAddress) ++
    pool.orcaMeta.toList.flatMap (fun held =>
      claim held.tokenVaultA (.poolA pool.poolAddress) ++
        claim held.tokenVaultB (.poolB pool.poolAddress)) ++
    pool.meteoraMeta.toList.flatMap (fun held =>
      claim held.tokenVaultA (.poolA pool.poolAddress) ++
        claim held.tokenVaultB (.poolB pool.poolAddress))

/-- The pool and the side of every vault; the last claim of a key wins. -/
def allVaults (mapped : List MappedPool) (cache : PoolStateCache) : HashMap Pubkey VaultType :=
  (mappedClaims mapped ++ (HashMap.values cache.inner).flatMap poolClaims).foldl
    (fun vaults (key, vault) => vaults.insert key vault) HashMap.empty

def sumA (pool : DexPool) (now : Instant) : DexPool :=
  { pool with
    reserveA := wrap 64 (pool.poolVaultABalance + pool.marketVaultABalance), lastUpdated := now }

def sumB (pool : DexPool) (now : Instant) : DexPool :=
  { pool with
    reserveB := wrap 64 (pool.poolVaultBBalance + pool.marketVaultBBalance), lastUpdated := now }

def setVaultBalance (now : Instant) (cache : PoolStateCache) (amount : Nat) :
    VaultType → PoolStateCache
  | .poolA pool => cache.getMut pool (fun held =>
      sumA { held with poolVaultABalance := amount } now)
  | .poolB pool => cache.getMut pool (fun held =>
      sumB { held with poolVaultBBalance := amount } now)
  | .marketA pool => cache.getMut pool (fun held =>
      sumA { held with marketVaultABalance := amount } now)
  | .marketB pool => cache.getMut pool (fun held =>
      sumB { held with marketVaultBBalance := amount } now)

/-- The amount in a token account. -/
def tokenAmount (acc : Account) : Option Nat :=
  if 72 ≤ acc.length then some (ofLeBytes ((acc.drop 64).take 8)) else none

def refreshBalance (now : Instant) (vaults : HashMap Pubkey VaultType) (cache : PoolStateCache)
    (received : Pubkey × Account) : PoolStateCache :=
  match tokenAmount received.2, HashMap.get vaults received.1 with
  | some amount, some vault => setVaultBalance now cache amount vault
  | _, _ => cache

def refreshBalances (network : Network) (now : Instant) (mapped : List MappedPool)
    (cache : PoolStateCache) : PoolStateCache :=
  let vaults := allVaults mapped cache
  (fetch network .vaults vaults.keys).foldl (refreshBalance now vaults) cache

/-! The whole refresh. -/

/-- The rounds before the balances. -/
def refreshMetadata (pda : Pda) (network : Network) (mapped : List MappedPool)
    (cache : PoolStateCache) : Except Panic PoolStateCache := do
  let staging ← stagePools pda network mapped cache
  let binArrays ← collectArrays Meteora.decodeBinArray
    (requestedBy staging.meteoraBinArrayRequests)
    (fetch network .binArrays (requestedKeys staging.meteoraBinArrayRequests))
  let cache := storeArrays storeBinArrays binArrays staging.cache
  let tickArrays ← collectArrays Orca.decodeTickArray
    (requestedBy staging.orcaTickArrayRequests)
    (fetch network .tickArrays (requestedKeys staging.orcaTickArrayRequests))
  let cache := storeArrays storeTickArrays tickArrays cache
  let pending ← resolveMarkets pda network staging
  return flushRaydiumMetas pending cache

def refreshAll (pda : Pda) (network : Network) (now : Instant) (mapped : List MappedPool)
    (cache : PoolStateCache) : Except Panic PoolStateCache := do
  let cache ← refreshMetadata pda network mapped cache
  return refreshBalances network now mapped cache

end PoolHydrator

end Helios
