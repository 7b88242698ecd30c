import Helios.CrossDex
import Helios.DiGraph
import Helios.PoolCache

/-! The route engine's token graph: its full build, its update in place and the
choice between the two at each scan. An edge's weight is `-ln(rate)` wherever it is
written, so that only the rate is kept, as an exact rational. -/

namespace Helios.RouteEngine

open Machine FloatArith

def minKnownTvlUsd : Nat := 10000
def minReserveWithoutOracle : Nat := 1000000

/-- The tokens the search for negative cycles starts from. -/
def anchorTokens : List Pubkey := [wsol, usdc, usdt]

/-- What the process takes from outside: the platform's float powers, and the
`POOL_BLACKLIST` variable, read once. -/
structure Env (F : Type) where
  powf : F → F → F
  powi : F → Nat → F
  poolBlacklist : List Pubkey

structure EdgeData where
  pool : Pubkey
  dexProgram : Pubkey
  tokenIn : Pubkey
  tokenOut : Pubkey
  rate : ℚ
  feeBps : Nat
  deriving DecidableEq

structure TokenGraph where
  graph : DiGraph Pubkey EdgeData
  nodeMap : HashMap Pubkey Nat

structure PersistentGraph where
  graph : TokenGraph
  poolEdges : HashMap Pubkey (List Nat)
  nPools : Nat
  builtAt : Instant

/-- What one scan reads: the cached pools in the order they are collected, the
oracle's prices if there is an oracle, and the clock. -/
structure Scan (F : Type) where
  pools : List DexPool
  distinct : (pools.map DexPool.poolAddress).Nodup
  oraclePrices : Option (HashMap Pubkey F)
  now : Instant

def inferDexProgram (pool : DexPool) : Pubkey := CrossDex.dexProgramFor pool.dexType

def isStablecoinMint (mint : Pubkey) : Bool := decide (mint = usdc) || decide (mint = usdt)

/-! The filters of the full build. -/

section Filters

variable {F : Type} [FloatArith F] (env : Env F)

def reserveUi (reserve decimals : Nat) : F :=
  div (ofNat reserve) (env.powi (ofNat 10) decimals)

def knownTvlUsdLowerBound (pool : DexPool) (oraclePrices : HashMap Pubkey F) : Option F :=
  let sideAUsd := (HashMap.get oraclePrices pool.tokenA).map
    (fun price => mul (reserveUi env pool.reserveA pool.decimalsA) price)
  let sideBUsd := (HashMap.get oraclePrices pool.tokenB).map
    (fun price => mul (reserveUi env pool.reserveB pool.decimalsB) price)
  match sideAUsd, sideBUsd with
  | some a, some b => some (add a b)
  | some a, none => some (mul a (ofNat 2))
  | none, some b => some (mul b (ofNat 2))
  | none, none => none

def completeMarket (metadata : RaydiumMetadata) : Bool :=
  decide (metadata.vaultA ≠ default ∧ metadata.vaultB ≠ default) &&
    decide (metadata.marketProgram ≠ default ∧ metadata.marketEventQueue ≠ default ∧
      metadata.marketBids ≠ default ∧ metadata.marketAsks ≠ default ∧
      metadata.marketBaseVault ≠ default ∧ metadata.marketQuoteVault ≠ default ∧
      metadata.marketVaultSigner ≠ default)

/-- What `pool_is_eligible` asks of each venue before it looks at the reserves. -/
def venueReady (pool : DexPool) : Bool :=
  match pool.dexType with
  | .raydiumClmm =>
      match pool.orcaMeta with
      | some metadata =>
          decide (0 < metadata.tickSpacing ∧ 0 < metadata.liquidity ∧ 0 < metadata.sqrtPrice)
      | none => false
  | .raydiumCpmm => false
  | .raydiumAmmV4 =>
      match pool.raydiumMeta with
      | none => false
      | some metadata => completeMarket metadata
  | _ => true

def reserveRatio (pool : DexPool) : F :=
  if pool.reserveB < pool.reserveA then div (ofNat pool.reserveA) (ofNat (max pool.reserveB 1))
  else div (ofNat pool.reserveB) (ofNat (max pool.reserveA 1))

def poolIsEligible (pool : DexPool) (oraclePrices : Option (HashMap Pubkey F)) : Bool :=
  if !venueReady pool then false
  else
    match oraclePrices.bind (knownTvlUsdLowerBound env pool) with
    | some knownTvlUsd => le (ofNat minKnownTvlUsd) knownTvlUsd
    | none =>
        if pool.reserveA < minReserveWithoutOracle ∨ pool.reserveB < minReserveWithoutOracle then
          false
        else !lt (ofNat 100000) (reserveRatio pool : F)

/-- The pools that are never added: two fixed ones and the configured list. -/
def blacklist : List Pubkey :=
  .parse "EGyhb2uLAsRUbRx9dNFBjMVYnFaASWMvD6RE1aEf2LxL" ::
    .parse "7XawhbbxtsRcQA8KTkHT9f9nc6d69UwqCDh6U5EEbEmX" :: env.poolBlacklist

def refAmount (pool : DexPool) : Nat :=
  if isStablecoinMint pool.tokenA && isStablecoinMint pool.tokenB then 100000
  else if isStablecoinMint pool.tokenA || isStablecoinMint pool.tokenB then 100000000
  else 100000000

/-- A Whirlpool is only used towards a side where its next tick array is cached. -/
def allowedDirections (pool : DexPool) : Bool × Bool :=
  if pool.dexType = .orcaWhirlpool then
    match pool.orcaMeta with
    | some metadata =>
        if metadata.tickArrays.entries ≠ [] ∧ 0 < metadata.tickSpacing then
          let start := Orca.tickArrayStartIndex metadata.tickCurrentIndex metadata.tickSpacing
          let offset := Orca.tickArrayOffset metadata.tickSpacing
          let hasCurrent := HashMap.containsKey metadata.tickArrays start
          (hasCurrent && HashMap.containsKey metadata.tickArrays (wrapI32 (start - offset)),
            hasCurrent && HashMap.containsKey metadata.tickArrays (wrapI32 (start + offset)))
        else (false, false)
    | none => (false, false)
  else (true, true)

end Filters

/-! The full build. -/

namespace TokenGraph

def new : TokenGraph := ⟨DiGraph.empty, HashMap.empty⟩

def getOrInsertNode (tg : TokenGraph) (token : Pubkey) : TokenGraph × Nat :=
  match HashMap.get tg.nodeMap token with
  | some idx => (tg, idx)
  | none =>
      let (graph, idx) := tg.graph.addNode token
      (⟨graph, tg.nodeMap.insert token idx⟩, idx)

variable {F : Type} [FloatArith F] (env : Env F)

/-- One of the two halves of `add_edge`. -/
def addDirection (tg : TokenGraph) (now : Instant) (pool : DexPool) (aToB : Bool) :
    TokenGraph :=
  let out := pool.quote env.powf now aToB (refAmount pool)
  if 0 < out then
    let rate : ℚ := out / refAmount pool
    let (tg, aIdx) := tg.getOrInsertNode pool.tokenA
    let (tg, bIdx) := tg.getOrInsertNode pool.tokenB
    if aToB then
      let edge : EdgeData :=
        ⟨pool.poolAddress, inferDexProgram pool, pool.tokenA, pool.tokenB, rate, pool.feeBps⟩
      { tg with graph := tg.graph.addEdge aIdx bIdx edge }
    else
      let edge : EdgeData :=
        ⟨pool.poolAddress, inferDexProgram pool, pool.tokenB, pool.tokenA, rate, pool.feeBps⟩
      { tg with graph := tg.graph.addEdge bIdx aIdx edge }
  else tg

def addEdge (tg : TokenGraph) (now : Instant) (pool : DexPool) : TokenGraph :=
  if pool.reserveA < 10000000 ∨ pool.reserveB < 10000000 then tg
  else if pool.poolAddress ∈ blacklist env then tg
  else
    let (allowAToB, allowBToA) := allowedDirections pool
    let tg := if allowAToB then tg.addDirection env now pool true else tg
    if allowBToA then tg.addDirection env now pool false else tg

end TokenGraph

/-- The exchange rate of an edge from the polled reserves; zero stands for none. -/
def computeRate (reserveIn reserveOut feeBps : Nat) : ℚ :=
  if reserveIn = 0 ∨ reserveOut = 0 then 0
  else
    let amountIn := min 100000000 (reserveIn / 10)
    if amountIn = 0 then 0
    else
      let fee := wrap 64 (amountIn * feeBps) / 10000
      let netIn := amountIn - fee
      let amountOut := wrap 64 (reserveOut * netIn / (reserveIn + netIn))
      if amountOut = 0 then 0 else amountOut / amountIn

/-! The two paths of a scan. -/

section Scanning

variable {F : Type} [FloatArith F] (env : Env F)

def addPool (scan : Scan F) (built : TokenGraph × HashMap Pubkey (List Nat)) (pool : DexPool) :
    TokenGraph × HashMap Pubkey (List Nat) :=
  if !poolIsEligible env pool scan.oraclePrices then built
  else
    let edgesBefore := built.1.graph.edgeCount
    let tg := built.1.addEdge env scan.now pool
    let edgesAfter := tg.graph.edgeCount
    if edgesBefore < edgesAfter then
      (tg, built.2.insert pool.poolAddress (List.range' edgesBefore (edgesAfter - edgesBefore)))
    else (tg, built.2)

def rebuild (scan : Scan F) : PersistentGraph :=
  let (tg, poolEdges) := scan.pools.foldl (addPool env scan) (TokenGraph.new, HashMap.empty)
  ⟨tg, poolEdges, scan.pools.length, scan.now⟩

/-- The rate of an edge recomputed from its pool's polled reserves. -/
def renewEdge (pool : DexPool) (edge : EdgeData) : EdgeData :=
  let newRate :=
    if edge.tokenIn = pool.tokenA then computeRate pool.reserveA pool.reserveB pool.feeBps
    else computeRate pool.reserveB pool.reserveA pool.feeBps
  if 0 < newRate then { edge with rate := newRate } else edge

def updatePool (poolEdges : HashMap Pubkey (List Nat)) (graph : DiGraph Pubkey EdgeData)
    (pool : DexPool) : DiGraph Pubkey EdgeData :=
  if pool.reserveA = 0 ∨ pool.reserveB = 0 then graph
  else
    match HashMap.get poolEdges pool.poolAddress with
    | some edgeIndices =>
        edgeIndices.foldl (fun graph index => graph.edgeWeightMut index (renewEdge pool)) graph
    | none => graph

def update (held : PersistentGraph) (scan : Scan F) : PersistentGraph :=
  { held with graph := { held.graph with
      graph := scan.pools.foldl (updatePool held.poolEdges) held.graph.graph } }

def needRebuild (held : Option PersistentGraph) (scan : Scan F) : Bool :=
  match held with
  | none => true
  | some pg =>
      decide (pg.nPools ≠ scan.pools.length) || decide (60 < pg.builtAt.elapsedSecs scan.now)

/-- The graph that a scan searches and leaves behind. -/
def scanGraph (held : Option PersistentGraph) (scan : Scan F) : PersistentGraph :=
  match held with
  | none => rebuild env scan
  | some pg => if needRebuild (some pg) scan then rebuild env scan else update pg scan

def scanStep (held : Option PersistentGraph) (scan : Scan F) : Option PersistentGraph :=
  some (scanGraph env held scan)

end Scanning

/-! What the search looks for. -/

def Tradable (tg : TokenGraph) (first second : Pubkey) : Prop :=
  ∃ edge, tg.graph.Links first second edge

/-- Tokens around which some edges' rates multiply to more than one: a negative cycle
of the weights. -/
def NegativeCycle (tg : TokenGraph) (tokens : List Pubkey) : Prop :=
  ∃ edges : List EdgeData, edges.length = tokens.length ∧
    (∀ place edge, edges[place]? = some edge → ∃ first second,
      tokens[place]? = some first ∧ tokens[(place + 1) % tokens.length]? = some second ∧
      tg.graph.Links first second edge) ∧
    1 < (edges.map EdgeData.rate).prod

/-- The negative cycles that can be reached from an anchor. -/
def candidateCycles (tg : TokenGraph) : Set (List Pubkey) :=
  { tokens | NegativeCycle tg tokens ∧ ∃ anchor ∈ anchorTokens, ∃ token ∈ tokens,
    Relation.ReflTransGen (Tradable tg) anchor token }

end Helios.RouteEngine
