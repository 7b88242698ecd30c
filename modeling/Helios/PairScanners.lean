import Helios.ScannedRoutes

/-! Four more scanners of two-hop routes: the one for a token that has graduated, the one for
Meteora pools against Orca pools, the one for staking tokens and the one for stablecoins. The
first three look through the whole cache, the last one asks the pair index. -/

namespace Helios.PairScanners

open Machine FloatArith CrossDex ScannedRoutes Runs PairIndex

def minMarginAboveFeesBps : Nat := 20

section Scans

variable {F : Type} [FloatArith F]

def byNetProfit (routes : List (RouteParams F)) : List (RouteParams F) :=
  routes.mergeSort (fun first second => decide (second.netProfit ≤ first.netProfit))

/-- Two pools of a pair, the one of the higher rate first, if their rates differ by more than
both fees and the margin. -/
def divergentPair (first second : PoolRate F) : Option (PoolRate F × PoolRate F × Nat) :=
  let ordered :=
    if lt second.rateAToB first.rateAToB then some (first, second)
    else if lt first.rateAToB second.rateAToB then some (second, first)
    else none
  match ordered with
  | none => none
  | some (high, low) =>
      let divergenceBps :=
        toU64 (mul (sub (div high.rateAToB low.rateAToB) (ofNat 1)) (ofNat 10000))
      if divergenceBps <
          dexFeeBps high.pool.dexType + dexFeeBps low.pool.dexType + minMarginAboveFeesBps
      then none
      else some (high, low, divergenceBps)

variable (powf : F → F → F) (now : Instant)

/-- The best route of each direction whose first token can be borrowed. A route may be adjusted
or turned down before it is compared. -/
def directionRoutes (adjust : RouteParams F → Option (RouteParams F)) (high low : PoolRate F)
    (key : Pubkey × Pubkey) (borrowAmounts : List Nat) (divergenceBps : Nat) :
    List (RouteParams F) :=
  (if isAnchor key.1 then
    (bestRoute ((forwardRoutes powf now high low key borrowAmounts divergenceBps).filterMap
      adjust)).toList
  else []) ++
  (if isAnchor key.2 then
    (bestRoute ((reverseRoutes powf now high low key borrowAmounts divergenceBps).filterMap
      adjust)).toList
  else [])

/-! The scan for a graduated token. -/

def minReserveSol : Nat := 5000000000

/-- The reserve a graduation is inserted with. -/
def estimatedReserve : Nat := 79000000000

def eligibleForGraduation (pool : DexPool) : Bool :=
  eligibleForPair pool && (isAnchor pool.tokenA || isAnchor pool.tokenB) &&
    !decide (pool.tokenA = wsol ∧ pool.reserveA < minReserveSol) &&
    !decide (pool.tokenB = wsol ∧ pool.reserveB < minReserveSol)

def poolsForToken (cache : PoolStateCache) (mint : Pubkey) : List DexPool :=
  (HashMap.values cache.inner).filter (fun pool => decide (pool.tokenA = mint ∨ pool.tokenB = mint))

def estimated (pool : DexPool) : Bool :=
  decide (pool.reserveA = estimatedReserve ∨ pool.reserveB = estimatedReserve)

def comparable (first second : DexPool) : Bool :=
  !decide (first.poolAddress = second.poolAddress) &&
    !(decide (first.dexType = second.dexType) && (estimated first || estimated second))

/-- Every two items of a list, in its order. -/
def pairsOf {Item : Type} : List Item → List (Item × Item)
  | [] => []
  | first :: rest => rest.map (fun second => (first, second)) ++ pairsOf rest

def asGraduation (route : RouteParams F) : Option (RouteParams F) :=
  some { route with strategy := "pump_graduation_arb" }

def comparedRoutes (adjust : RouteParams F → Option (RouteParams F)) (key : Pubkey × Pubkey)
    (borrowAmounts : List Nat) (first second : PoolRate F) : List (RouteParams F) :=
  match divergentPair first second with
  | none => []
  | some (high, low, divergenceBps) =>
      directionRoutes powf now adjust high low key borrowAmounts divergenceBps

def graduationRoutes (borrowAmounts : List Nat) (key : Pubkey × Pubkey) (pools : List DexPool) :
    List (RouteParams F) :=
  let poolRates : List (PoolRate F) := pools.filterMap (poolRate powf now key.1 borrowAmounts)
  (pairsOf poolRates).flatMap (fun rates =>
    if comparable rates.1.pool rates.2.pool then
      comparedRoutes powf now asGraduation key borrowAmounts rates.1 rates.2
    else [])

def scanGraduationArb (cache : PoolStateCache) (tokenMint : Pubkey) (borrowAmounts : List Nat) :
    List (RouteParams F) :=
  let allPools := poolsForToken cache tokenMint
  let eligible := allPools.filter eligibleForGraduation
  if allPools.length < 2 ∨ eligible.length < 2 then []
  else
    let pairGroups := HashMap.pushAll HashMap.empty
      (eligible.map (fun pool => (pairKey pool.tokenA pool.tokenB, pool)))
    byNetProfit (pairGroups.entries.flatMap (fun entry =>
      if entry.2.length < 2 then []
      else graduationRoutes powf now borrowAmounts entry.1 entry.2))

/-! The scan of Meteora pools against Orca pools. -/

def focusTokens : List Pubkey :=
  [.parse "DezXAZ8z7PnrnRJjz3wXBoRgixCa6xjnB7YaB1pPB263",
    .parse "EKpQGSJtjMFqKZ9KQanSqYXRcF8fBopzLHYxdM65zcjm",
    .parse "JUPyiwrYJFskUPiHa7hkeR8VUtAeFoSYbKedZNsDvCN",
    .parse "jtojtomepa8beP8AuQc6eXt5FriJwfFMwQx2v2f9mCL",
    .parse "HZ1JovNiVvGrGNiiYvEozEVgZ58xaU3RKwX8eACQBCt3",
    .parse "4k3Dyjzvzp8eMZWUXbBCjEvwSkkk59S5iCNLY3QrkX6R",
    .parse "So11111111111111111111111111111111111111112"]

def isDlmm (pool : DexPool) : Bool :=
  hasReserves pool && decide (pool.dexType = .meteoraDlmm) && pool.meteoraMeta.isSome

def isWhirlpool (pool : DexPool) : Bool :=
  hasReserves pool && decide (pool.dexType = .orcaWhirlpool) &&
    match pool.orcaMeta with
    | none => false
    | some orca => decide (orca.tickArrays.entries ≠ [] ∧ 0 < orca.liquidity ∧ 0 < orca.sqrtPrice)

/-- Returns above 3 % are turned down, and the risk is set lower. -/
def asDlmmWhirlpool (route : RouteParams F) : Option (RouteParams F) :=
  let returnRatio : F :=
    div (add (ofNat route.borrowAmount) (ofNat route.grossProfit)) (ofNat route.borrowAmount)
  if lt (ofRat (103 / 100)) returnRatio then none
  else some { route with
    strategy := "dlmm_whirlpool_arb"
    riskFactor := FloatArith.min (mul route.riskFactor (ofRat (7 / 10))) (ofRat (1 / 2)) }

/-- The routes of one Orca pool with the Meteora pools of its pair. -/
def whirlpoolRoutes (dlmmPools : List DexPool) (borrowAmounts : List Nat) (wp : DexPool) :
    List (RouteParams F) :=
  let key := pairKey wp.tokenA wp.tokenB
  if ¬(wp.tokenA ∈ focusTokens ∨ wp.tokenB ∈ focusTokens) then []
  else if !(isAnchor key.1 || isAnchor key.2) then []
  else
    (dlmmPools.filter (fun dlmm => decide (pairKey dlmm.tokenA dlmm.tokenB = key))).flatMap
      (fun dlmm =>
        match poolRate powf now key.1 borrowAmounts wp,
            poolRate powf now key.1 borrowAmounts dlmm with
        | some wpRate, some dlmmRate =>
            comparedRoutes powf now asDlmmWhirlpool key borrowAmounts wpRate dlmmRate
        | _, _ => [])

def scanBinDivergence (cache : PoolStateCache) (borrowAmounts : List Nat) : List (RouteParams F) :=
  let pools := HashMap.values cache.inner
  byNetProfit ((pools.filter isWhirlpool).flatMap
    (whirlpoolRoutes powf now (pools.filter isDlmm) borrowAmounts))

/-! The scan of liquid staking tokens against SOL. -/

def lstMints : List Pubkey :=
  [.parse "mSoLzYCxHdYgdzU16g5QSh3i5K3z3KZK7ytfqcJm7So",
    .parse "J1toso1uCk3RLmjorhTtrVwY9HJ7X8V9yYac6Y7kGCPn",
    .parse "bSo13r4TkiE4KumL71LsHTPpL2euBYLFx6h9HP3piy1",
    .parse "7dHbWXmci3dT8UFYWYZweBLXgycu7Y3iL6trKn1Y7ARj",
    .parse "5oVNBeEEQvYi1cX3ir8Dx5n1P7pdxydbGF2X4TxVusJm"]

def lstMarginBps : Nat := 10

def isLstPair (pool : DexPool) : Bool :=
  decide ((pool.tokenA = wsol ∧ pool.tokenB ∈ lstMints) ∨
    (pool.tokenB = wsol ∧ pool.tokenA ∈ lstMints))

/-- The rate of the reserves; the other scans ask for a quote. -/
def reserveRate (pairFirst : Pubkey) (pool : DexPool) : Option (PoolRate F) :=
  let canonicalOrder := decide (pool.tokenA = pairFirst)
  let (given, had) :=
    if canonicalOrder then (pool.reserveA, pool.reserveB) else (pool.reserveB, pool.reserveA)
  if given = 0 then none
  else
    let rateAToB : F := div (ofNat had) (ofNat given)
    if le rateAToB (ofNat 0) || !isFinite rateAToB then none
    else some ⟨pool, rateAToB, canonicalOrder⟩

/-- Returns above 2 % are turned down, and the risk is halved. -/
def asLst (route : RouteParams F) : Option (RouteParams F) :=
  let returnRatio : F :=
    div (add (ofNat route.borrowAmount) (ofNat route.grossProfit)) (ofNat route.borrowAmount)
  if lt (ofRat (102 / 100)) returnRatio then none
  else some { route with
    strategy := "lst-arb"
    riskFactor := FloatArith.min (mul route.riskFactor (ofRat (1 / 2))) (ofRat (3 / 10)) }

/-- SOL is borrowed, on whichever side of the pair it is. -/
def lstRoutes (borrowAmounts : List Nat) (key : Pubkey × Pubkey) (pools : List (PoolRate F)) :
    List (RouteParams F) :=
  match divergentPools lstMarginBps pools with
  | none => []
  | some (high, low, divergenceBps) =>
      let routes :=
        if key.1 = wsol then forwardRoutes powf now high low key borrowAmounts divergenceBps
        else reverseRoutes powf now high low key borrowAmounts divergenceBps
      (bestRoute (routes.filterMap asLst)).toList

def lstRates (cache : PoolStateCache) : List ((Pubkey × Pubkey) × PoolRate F) :=
  ((HashMap.values cache.inner).filter (fun pool =>
    eligibleForPair pool && isLstPair pool)).filterMap (fun pool =>
      let key := pairKey pool.tokenA pool.tokenB
      (reserveRate key.1 pool).map (fun rate => (key, rate)))

def scanLstOpportunities (cache : PoolStateCache) (borrowAmounts : List Nat) :
    List (RouteParams F) :=
  byNetProfit ((HashMap.pushAll HashMap.empty (lstRates cache)).entries.flatMap (fun entry =>
    lstRoutes powf now borrowAmounts entry.1 entry.2))

/-! The scan of stablecoins. -/

def minSpreadBps : Nat := 30
def minPoolLiquidity : Nat := 1000000000

def isEligiblePool (pool : DexPool) : Bool :=
  !decide (pool.reserveA < minPoolLiquidity ∨ pool.reserveB < minPoolLiquidity) &&
    !decide (pool.dexType = .unknown ∨ pool.dexType = .raydiumCpmm) &&
    match pool.dexType with
    | .raydiumAmmV4 =>
        match pool.raydiumMeta with
        | none => false
        | some raydium => !decide (raydium.vaultA = default ∨ raydium.vaultB = default ∨
            raydium.marketId = default ∨ raydium.marketBids = default ∨
            raydium.marketAsks = default)
    | .orcaWhirlpool =>
        match pool.orcaMeta with
        | none => false
        | some orca => !decide (orca.tickSpacing = 0 ∨ orca.tokenVaultA = default)
    | .meteoraDlmm =>
        match pool.meteoraMeta with
        | none => false
        | some meteora => !decide (meteora.tokenVaultA = default)
    | _ => true

-- `10f64.powi` of the decimals
variable (powi : Nat → F)

/-- The price of SOL in the other token; nought if the pool has no SOL. -/
def impliedSolPrice (pool : DexPool) : F :=
  let (ra, rb) := pool.effectiveReserves now
  let ui (reserve decimals : Nat) : F := div (ofNat reserve) (powi decimals)
  let price (solUi stableUi : F) : F :=
    if le solUi (ofNat 0) then ofNat 0 else div stableUi solUi
  if ra = 0 ∨ rb = 0 then ofNat 0
  else if pool.tokenA = wsol then price (ui ra pool.decimalsA) (ui rb pool.decimalsB)
  else if pool.tokenB = wsol then price (ui rb pool.decimalsB) (ui ra pool.decimalsA)
  else ofNat 0

def stableReturnMultiplier : F := ofRat (102 / 100)

/-- Borrow `borrowToken`, swap it on the first pool and back on the second. The spread is only
logged. -/
def buildStablecoinRoute (buyPool sellPool : DexPool) (borrowToken midToken : Pubkey)
    (_spreadBps borrowAmount : Nat) : Option (RouteParams F) :=
  let buyAIsBorrow := decide (buyPool.tokenA = borrowToken)
  if reserveIn buyPool buyAIsBorrow < saturatingMul64 borrowAmount 5 then none
  else
    let midAmount := buyPool.quote powf now buyAIsBorrow borrowAmount
    let impact1 : F := priceImpact buyPool buyAIsBorrow borrowAmount
    if midAmount = 0 ∨ lt maxImpactPct impact1 then none
    else
      let sellAIsMid := decide (sellPool.tokenA = midToken)
      let finalAmount := sellPool.quote powf now sellAIsMid midAmount
      let impact2 : F := priceImpact sellPool sellAIsMid midAmount
      if finalAmount = 0 ∨ lt maxImpactPct impact2 then none
      else if finalAmount ≤ borrowAmount then none
      else if lt (mul (ofNat borrowAmount) (stableReturnMultiplier : F)) (ofNat finalAmount) then
        none
      else
        let grossProfit := finalAmount - borrowAmount
        if netProfit grossProfit ≤ 0 then none
        else
          some {
            hops := [
              { pool := buyPool.poolAddress
                dexProgram := dexProgramFor buyPool.dexType
                tokenIn := borrowToken
                tokenOut := midToken
                amountOut := midAmount
                priceImpact := impact1 },
              { pool := sellPool.poolAddress
                dexProgram := dexProgramFor sellPool.dexType
                tokenIn := midToken
                tokenOut := borrowToken
                amountOut := finalAmount
                priceImpact := impact2 }]
            borrowAmount := borrowAmount
            grossProfit := grossProfit
            netProfit := netProfit grossProfit
            riskFactor := FloatArith.min (div (FloatArith.max impact1 impact2) (ofNat 100))
              (ofRat (95 / 100))
            strategy := "stablecoin_arb"
            tier := 0 }

/-- A pool with its price and its place in the list. -/
abbrev Priced (F : Type) := (DexPool × F) × Nat

/-- The last of the highest prices (`max_by`). -/
def maxByPrice : List (Priced F) → Option (Priced F)
  | [] => none
  | head :: tail => some (tail.foldl (fun best next =>
      if lt next.1.2 best.1.2 then best else next) head)

/-- The first of the lowest prices (`min_by`). -/
def minByPrice : List (Priced F) → Option (Priced F)
  | [] => none
  | head :: tail => some (tail.foldl (fun best next =>
      if lt next.1.2 best.1.2 then next else best) head)

def pricedPools (cache : PoolStateCache) (stable : Pubkey) : List (DexPool × F) :=
  (((cache.poolsForPair wsol stable).filter isEligiblePool).map
    (fun pool => (pool, impliedSolPrice now powi pool))).filter
      (fun priced => lt (ofNat 0) priced.2 && isFinite priced.2)

def scanStablecoinPair (cache : PoolStateCache) (stable : Pubkey) (borrowAmounts : List Nat) :
    List (RouteParams F) :=
  let priced := (pricedPools now powi cache stable).zipIdx
  if priced.length < 2 then []
  else
    match maxByPrice priced, minByPrice priced with
    | some ((expensivePool, maxPrice), maxIdx), some ((cheapPool, minPrice), minIdx) =>
        if maxIdx = minIdx then []
        else
          let avgPrice := div (add maxPrice minPrice) (ofNat 2)
          let spreadBps := toU64 (mul (div (sub maxPrice minPrice) avgPrice) (ofNat 10000))
          if spreadBps <
              dexFeeBps cheapPool.dexType + dexFeeBps expensivePool.dexType + minSpreadBps then []
          else
            (byNetProfit (
              borrowAmounts.filterMap
                (buildStablecoinRoute powf now cheapPool expensivePool stable wsol spreadBps) ++
              borrowAmounts.filterMap
                (buildStablecoinRoute powf now expensivePool cheapPool wsol stable
                  spreadBps))).take 3
    | _, _ => []

/-- `StablecoinArbScanner::scan`. -/
def scanStablecoins (cache : PoolStateCache) (borrowAmounts : List Nat) : List (RouteParams F) :=
  byNetProfit (scanStablecoinPair powf now powi cache usdc borrowAmounts ++
    scanStablecoinPair powf now powi cache usdt borrowAmounts)

end Scans

/-! What every route of the three promises. -/

section Promise

variable (powf : Double → Double → Double) (now : Instant) (cache : PoolStateCache)

/-- A closed chain from a token that can be borrowed, there through one pool and back through
another, quoted by both and paying more than the fees. -/
structure Lawful (borrowable : List Pubkey) (borrowAmounts : List Nat)
    (route : RouteParams Double) : Prop where
  closed : ∃ mint ∈ borrowable, Walk Hop.tokenIn Hop.tokenOut mint route.hops mint
  profit : ∃ last, Threaded (QuotedHop powf now cache) Hop.amountOut route.borrowAmount
      route.hops last ∧
    route.netProfit = last - route.borrowAmount - (txFeePerHop * 2 : Nat) ∧ 0 < route.netProfit
  pools : ∃ firstHop secondHop, route.hops = [firstHop, secondHop] ∧
    firstHop.pool ≠ secondHop.pool
  borrowed : route.borrowAmount ∈ borrowAmounts

/-- The law does not look at strategy, tier and risk. -/
theorem lawful_congr (borrowable : List Pubkey) (borrowAmounts : List Nat)
    (plain route : RouteParams Double) (hops : route.hops = plain.hops)
    (borrowed : route.borrowAmount = plain.borrowAmount)
    (nets : route.netProfit = plain.netProfit)
    (lawful : Lawful powf now cache borrowable borrowAmounts plain) :
    Lawful powf now cache borrowable borrowAmounts route := by
  constructor
  · rw [hops]
    exact lawful.closed
  · rw [hops, borrowed, nets]
    exact lawful.profit
  · rw [hops]
    exact lawful.pools
  · rw [borrowed]
    exact lawful.borrowed

theorem sorted_byNetProfit (routes : List (RouteParams Double)) :
    (byNetProfit routes).Pairwise (fun earlier later => later.netProfit ≤ earlier.netProfit) := by
  have sorted : (byNetProfit routes).Pairwise
      (fun first second => decide (second.netProfit ≤ first.netProfit) = true) := by
    refine List.pairwise_mergeSort (fun first second third below above => ?_)
      (fun first second => ?_) routes
    · simp only [decide_eq_true_eq] at below above ⊢
      exact above.trans below
    · simp only [Bool.or_eq_true, decide_eq_true_eq]
      exact le_total second.netProfit first.netProfit
  exact sorted.imp of_decide_eq_true

theorem mem_byNetProfit (routes : List (RouteParams Double)) (route : RouteParams Double) :
    route ∈ byNetProfit routes ↔ route ∈ routes := List.mem_mergeSort

/-- A pool of the cache with its rate on a pair. -/
structure Rated (key : Pubkey × Pubkey) (rate : PoolRate Double) : Prop where
  cached : rate.pool ∈ HashMap.values cache.inner
  ofPair : pairKey rate.pool.tokenA rate.pool.tokenB = key
  order : rate.canonicalOrder = decide (rate.pool.tokenA = key.1)

theorem rated_of_poolRate (key : Pubkey × Pubkey) (borrowAmounts : List Nat) (pool : DexPool)
    (rate : PoolRate Double) (cached : pool ∈ HashMap.values cache.inner)
    (ofPair : pairKey pool.tokenA pool.tokenB = key)
    (rated : poolRate powf now key.1 borrowAmounts pool = some rate) :
    rate.pool = pool ∧ Rated cache key rate := by
  rcases poolRate_spec powf now key.1 borrowAmounts pool rate rated with ⟨same, order⟩
  refine ⟨same, ?_, ?_, ?_⟩
  · rw [same]
    exact cached
  · rw [same]
    exact ofPair
  · rw [order, same]

theorem divergentPair_cases (first second high low : PoolRate Double) (divergenceBps : Nat)
    (divergent : divergentPair first second = some (high, low, divergenceBps)) :
    (high = first ∧ low = second) ∨ (high = second ∧ low = first) := by
  rw [divergentPair] at divergent
  dsimp only at divergent
  by_cases above : lt second.rateAToB first.rateAToB = true
  · rw [if_pos above] at divergent
    dsimp only at divergent
    split at divergent
    · cases divergent
    · cases divergent
      exact Or.inl ⟨rfl, rfl⟩
  · rw [if_neg above] at divergent
    by_cases below : lt first.rateAToB second.rateAToB = true
    · rw [if_pos below] at divergent
      dsimp only at divergent
      split at divergent
      · cases divergent
      · cases divergent
        exact Or.inr ⟨rfl, rfl⟩
    · rw [if_neg below] at divergent
      cases divergent

variable (keyed : ∀ address pool, cache.get address = some pool → pool.poolAddress = address)

include keyed in
theorem lawful_twoHop (first second : DexPool) (firstAToB secondAToB : Bool)
    (mint tokenMid : Pubkey) (borrowable : List Pubkey) (borrowAmounts : List Nat)
    (borrowAmount : Nat) (route : RouteParams Double) (amount : borrowAmount ∈ borrowAmounts)
    (anchor : isAnchor mint = true) (allowed : mint ∈ borrowable)
    (firstIn : first ∈ HashMap.values cache.inner)
    (secondIn : second ∈ HashMap.values cache.inner)
    (there : Trades first firstAToB mint tokenMid) (back : Trades second secondAToB tokenMid mint)
    (apart : first.poolAddress ≠ second.poolAddress)
    (built : twoHopRoute powf now first firstAToB second secondAToB mint tokenMid borrowAmount =
      some route) :
    Lawful powf now cache borrowable borrowAmounts route := by
  have profitable := profitable_twoHop powf now cache keyed first second firstAToB secondAToB mint
    tokenMid borrowAmount route anchor firstIn secondIn there back built
  have spec := twoHopRoute_spec powf now first firstAToB second secondAToB mint tokenMid
    borrowAmount route built
  rcases spec.hops with ⟨firstHop, secondHop, hops, firstPool, -, firstToken, midToken, -,
    secondPool, -, secondToken, lastToken, -⟩
  refine ⟨⟨mint, allowed, ?_⟩, profitable.profit, ⟨firstHop, secondHop, hops, ?_⟩, ?_⟩
  · rw [hops]
    exact ⟨firstToken, secondToken.trans midToken.symm, lastToken⟩
  · rw [firstPool, secondPool]
    exact apart
  · rw [spec.borrowed]
    exact amount

theorem trades_of_rated (key : Pubkey × Pubkey) (rate : PoolRate Double)
    (rated : Rated cache key rate) : Trades rate.pool rate.canonicalOrder key.1 key.2 := by
  rw [rated.order]
  exact trades_of_pair rate.pool key.1 key.2 (tokens_of_pairKey rate.pool key rated.ofPair)

section Directions

variable (key : Pubkey × Pubkey) (borrowable : List Pubkey) (borrowAmounts : List Nat)
  (high low : PoolRate Double) (divergenceBps : Nat) (highIn : Rated cache key high)
  (lowIn : Rated cache key low) (apart : high.pool.poolAddress ≠ low.pool.poolAddress)
  (route : RouteParams Double)

include keyed highIn lowIn apart

theorem lawful_forward (anchor : isAnchor key.1 = true) (allowed : key.1 ∈ borrowable)
    (listed : route ∈ forwardRoutes powf now high low key borrowAmounts divergenceBps) :
    Lawful powf now cache borrowable borrowAmounts route := by
  rcases List.mem_filterMap.mp listed with ⟨borrowAmount, amount, built⟩
  rw [buildCrossDexRoute, Option.ite_none_left_eq_some] at built
  exact lawful_twoHop powf now cache keyed high.pool low.pool _ _ key.1 key.2 borrowable
    borrowAmounts borrowAmount route amount anchor allowed highIn.cached lowIn.cached
    (trades_of_rated cache key high highIn)
    (trades_back _ _ _ _ (trades_of_rated cache key low lowIn)) apart built.2

theorem lawful_reverse (anchor : isAnchor key.2 = true) (allowed : key.2 ∈ borrowable)
    (listed : route ∈ reverseRoutes powf now high low key borrowAmounts divergenceBps) :
    Lawful powf now cache borrowable borrowAmounts route := by
  rcases List.mem_filterMap.mp listed with ⟨borrowAmount, amount, built⟩
  exact lawful_twoHop powf now cache keyed low.pool high.pool _ _ key.2 key.1 borrowable
    borrowAmounts borrowAmount route amount anchor allowed lowIn.cached highIn.cached
    (trades_back _ _ _ _ (trades_of_rated cache key low lowIn))
    (trades_of_rated cache key high highIn) (Ne.symm apart) built

end Directions

section Adjusted

variable (adjust : RouteParams Double → Option (RouteParams Double))
  (keeps : ∀ plain route, adjust plain = some route → route.hops = plain.hops ∧
    route.borrowAmount = plain.borrowAmount ∧ route.netProfit = plain.netProfit)

include keeps

/-- The best of lawful routes, whatever is written over them. -/
theorem lawful_adjusted (borrowable : List Pubkey) (borrowAmounts : List Nat)
    (routes : List (RouteParams Double)) (route : RouteParams Double)
    (lawful : ∀ plain ∈ routes, Lawful powf now cache borrowable borrowAmounts plain)
    (best : bestRoute (routes.filterMap adjust) = some route) :
    Lawful powf now cache borrowable borrowAmounts route := by
  rcases List.mem_filterMap.mp (mem_of_bestRoute _ _ best) with ⟨plain, listed, made⟩
  rcases keeps plain route made with ⟨hops, borrowed, nets⟩
  exact lawful_congr powf now cache _ _ plain route hops borrowed nets (lawful plain listed)

include keyed in
/-- The routes of two rated pools. -/
theorem lawful_compared (key : Pubkey × Pubkey) (borrowAmounts : List Nat)
    (first second : PoolRate Double) (firstIn : Rated cache key first)
    (secondIn : Rated cache key second)
    (apart : first.pool.poolAddress ≠ second.pool.poolAddress) (route : RouteParams Double)
    (member : route ∈ comparedRoutes powf now adjust key borrowAmounts first second) :
    Lawful powf now cache anchorTokens borrowAmounts route := by
  rw [comparedRoutes] at member
  split at member
  · cases member
  · next high low divergenceBps divergent =>
      have both : Rated cache key high ∧ Rated cache key low ∧
          high.pool.poolAddress ≠ low.pool.poolAddress := by
        rcases divergentPair_cases first second high low divergenceBps divergent with
          ⟨rfl, rfl⟩ | ⟨rfl, rfl⟩
        · exact ⟨firstIn, secondIn, apart⟩
        · exact ⟨secondIn, firstIn, Ne.symm apart⟩
      rcases both with ⟨highIn, lowIn, apart⟩
      rcases List.mem_append.mp member with forward | reverse
      · split at forward
        · next anchor =>
            apply lawful_adjusted powf now cache adjust keeps _ _ _ _ _
              (Option.mem_toList.mp forward)
            intro plain
            exact lawful_forward powf now cache keyed key _ borrowAmounts high low divergenceBps
              highIn lowIn apart plain anchor (of_decide_eq_true anchor)
        · cases forward
      · split at reverse
        · next anchor =>
            apply lawful_adjusted powf now cache adjust keeps _ _ _ _ _
              (Option.mem_toList.mp reverse)
            intro plain
            exact lawful_reverse powf now cache keyed key _ borrowAmounts high low divergenceBps
              highIn lowIn apart plain anchor (of_decide_eq_true anchor)
        · cases reverse

end Adjusted

/-! The scan for a graduated token. -/

theorem mem_pairsOf {Item : Type} (items : List Item) (pair : Item × Item)
    (member : pair ∈ pairsOf items) : pair.1 ∈ items ∧ pair.2 ∈ items := by
  induction items with
  | nil => cases member
  | cons first rest ih =>
      rcases List.mem_append.mp member with here | later
      · rcases List.mem_map.mp here with ⟨second, inside, rfl⟩
        exact ⟨List.mem_cons_self, List.mem_cons_of_mem _ inside⟩
      · rcases ih later with ⟨one, other⟩
        exact ⟨List.mem_cons_of_mem _ one, List.mem_cons_of_mem _ other⟩

theorem asGraduation_keeps (plain route : RouteParams Double)
    (made : asGraduation plain = some route) : route.hops = plain.hops ∧
      route.borrowAmount = plain.borrowAmount ∧ route.netProfit = plain.netProfit := by
  cases made
  exact ⟨rfl, rfl, rfl⟩

include keyed in
theorem lawful_graduation (tokenMint : Pubkey) (borrowAmounts : List Nat)
    (route : RouteParams Double)
    (member : route ∈ scanGraduationArb powf now cache tokenMint borrowAmounts) :
    Lawful powf now cache anchorTokens borrowAmounts route := by
  simp only [scanGraduationArb] at member
  split at member
  · cases member
  · rw [mem_byNetProfit] at member
    rcases List.mem_flatMap.mp member with ⟨entry, grouped, inGroup⟩
    split at inGroup
    · cases inGroup
    · have pools : ∀ pool ∈ entry.2, pool ∈ HashMap.values cache.inner ∧
          pairKey pool.tokenA pool.tokenB = entry.1 := by
        intro pool inside
        have held : pool ∈ (HashMap.get (HashMap.pushAll HashMap.empty
            (((poolsForToken cache tokenMint).filter eligibleForGraduation).map
              (fun pool => (pairKey pool.tokenA pool.tokenB, pool)))) entry.1).getD [] := by
          rw [HashMap.get, AList.mem_lookup_iff.mpr grouped]
          exact inside
        rcases List.mem_map.mp ((HashMap.mem_pushAll _ _ _).mp held) with ⟨listed, passed, same⟩
        rcases Prod.mk.inj same with ⟨ofPair, rfl⟩
        exact ⟨List.mem_of_mem_filter (List.mem_of_mem_filter passed), ofPair⟩
      rcases List.mem_flatMap.mp inGroup with ⟨rates, paired, compared⟩
      rcases mem_pairsOf _ _ paired with ⟨firstIn, secondIn⟩
      have rated : ∀ rate ∈ entry.2.filterMap (poolRate powf now entry.1.1 borrowAmounts),
          Rated cache entry.1 rate := by
        intro rate inside
        rcases List.mem_filterMap.mp inside with ⟨pool, listed, made⟩
        rcases pools pool listed with ⟨cached, ofPair⟩
        exact (rated_of_poolRate powf now cache entry.1 borrowAmounts pool rate cached ofPair
          made).2
      split at compared
      · next passes =>
          rw [comparable, Bool.and_eq_true] at passes
          exact lawful_compared powf now cache keyed asGraduation asGraduation_keeps entry.1
            borrowAmounts rates.1 rates.2 (rated _ firstIn) (rated _ secondIn)
            (by simpa using passes.1) route compared
      · cases compared

/-! The scan of Meteora pools against Orca pools. -/

theorem asDlmmWhirlpool_keeps (plain route : RouteParams Double)
    (made : asDlmmWhirlpool plain = some route) : route.hops = plain.hops ∧
      route.borrowAmount = plain.borrowAmount ∧ route.netProfit = plain.netProfit := by
  simp only [asDlmmWhirlpool, Option.ite_none_left_eq_some] at made
  cases made.2
  exact ⟨rfl, rfl, rfl⟩

include keyed in
theorem lawful_binDivergence (borrowAmounts : List Nat) (route : RouteParams Double)
    (member : route ∈ scanBinDivergence powf now cache borrowAmounts) :
    Lawful powf now cache anchorTokens borrowAmounts route := by
  rw [scanBinDivergence, mem_byNetProfit] at member
  rcases List.mem_flatMap.mp member with ⟨wp, inside, found⟩
  rcases List.mem_filter.mp inside with ⟨wpCached, orca⟩
  simp only [whirlpoolRoutes] at found
  split at found
  · cases found
  · split at found
    · cases found
    · rcases List.mem_flatMap.mp found with ⟨dlmm, listed, compared⟩
      rcases List.mem_filter.mp listed with ⟨meteora, ofPair⟩
      rcases List.mem_filter.mp meteora with ⟨dlmmCached, meteora⟩
      split at compared
      · next wpRate dlmmRate wpMade dlmmMade =>
          rcases rated_of_poolRate powf now cache _ borrowAmounts wp wpRate wpCached rfl wpMade with
            ⟨wpSame, wpRated⟩
          rcases rated_of_poolRate powf now cache _ borrowAmounts dlmm dlmmRate dlmmCached
            (of_decide_eq_true ofPair) dlmmMade with ⟨dlmmSame, dlmmRated⟩
          apply lawful_compared powf now cache keyed asDlmmWhirlpool asDlmmWhirlpool_keeps _
            borrowAmounts wpRate dlmmRate wpRated dlmmRated _ route compared
          rw [wpSame, dlmmSame]
          intro same
          have both := (cached_of_member cache keyed wp wpCached).symm.trans
            (same ▸ cached_of_member cache keyed dlmm dlmmCached)
          simp only [isWhirlpool, isDlmm, Bool.and_eq_true, decide_eq_true_eq] at orca meteora
          have types := congrArg DexPool.dexType (Option.some.inj both)
          rw [orca.1.2, meteora.1.2] at types
          cases types
      · cases compared

/-! The scan of staking tokens. -/

theorem asLst_keeps (plain route : RouteParams Double) (made : asLst plain = some route) :
    route.hops = plain.hops ∧ route.borrowAmount = plain.borrowAmount ∧
      route.netProfit = plain.netProfit := by
  simp only [asLst, Option.ite_none_left_eq_some] at made
  cases made.2
  exact ⟨rfl, rfl, rfl⟩

theorem apart_of_divergentPools (marginBps : Nat) (pools : List (PoolRate Double))
    (high low : PoolRate Double) (divergenceBps : Nat)
    (divergent : divergentPools marginBps pools = some (high, low, divergenceBps)) :
    high.pool.poolAddress ≠ low.pool.poolAddress := by
  unfold divergentPools at divergent
  split at divergent
  · cases divergent
  · split at divergent
    · split at divergent
      · cases divergent
      · next differ =>
          dsimp only at divergent
          split at divergent
          · cases divergent
          · cases divergent
            exact fun same => differ (Or.inl same)
    · cases divergent

/-- A group holds rated pools of its pair, which has SOL on one side. -/
theorem rated_of_lstRates (key : Pubkey × Pubkey) (rate : PoolRate Double)
    (listed : (key, rate) ∈ lstRates cache) :
    Rated cache key rate ∧ (key.1 = wsol ∨ key.2 = wsol) := by
  rcases List.mem_filterMap.mp listed with ⟨pool, inside, made⟩
  rcases List.mem_filter.mp inside with ⟨cached, passes⟩
  rcases Option.map_eq_some_iff.mp made with ⟨found, rated, same⟩
  rcases Prod.mk.inj same with ⟨ofPair, rfl⟩
  rw [ofPair] at rated
  simp only [reserveRate, Option.ite_none_left_eq_some, Option.some.injEq] at rated
  rcases rated with ⟨-, -, rfl⟩
  refine ⟨⟨cached, ofPair, rfl⟩, ?_⟩
  rw [Bool.and_eq_true, isLstPair, decide_eq_true_eq] at passes
  rcases tokens_of_pairKey pool key ofPair with ⟨first, second⟩ | ⟨first, second⟩
  · rw [← first, ← second]
    exact passes.2.imp And.left And.left
  · rw [← first, ← second]
    exact passes.2.symm.imp And.left And.left

include keyed in
theorem lawful_lst (borrowAmounts : List Nat) (route : RouteParams Double)
    (member : route ∈ scanLstOpportunities powf now cache borrowAmounts) :
    Lawful powf now cache [wsol] borrowAmounts route := by
  rw [scanLstOpportunities, mem_byNetProfit] at member
  rcases List.mem_flatMap.mp member with ⟨⟨key, pools⟩, grouped, found⟩
  have rated : ∀ rate ∈ pools, Rated cache key rate ∧ (key.1 = wsol ∨ key.2 = wsol) := by
    intro rate inside
    apply rated_of_lstRates cache key rate
    apply (HashMap.mem_pushAll _ _ _).mp
    rw [HashMap.get, AList.mem_lookup_iff.mpr grouped]
    exact inside
  rw [lstRoutes] at found
  split at found
  · cases found
  · next high low divergenceBps divergent =>
      rcases mem_of_divergentPools _ _ _ _ _ divergent with ⟨highIn, lowIn⟩
      rcases rated high highIn with ⟨highIn, side⟩
      have lowIn := (rated low lowIn).1
      have apart := apart_of_divergentPools _ _ _ _ _ divergent
      have anchor : isAnchor wsol = true := decide_eq_true List.mem_cons_self
      apply lawful_adjusted powf now cache asLst asLst_keeps _ _ _ _ _ (Option.mem_toList.mp found)
      intro plain listed
      split at listed
      · next first =>
          exact lawful_forward powf now cache keyed key _ borrowAmounts high low divergenceBps
            highIn lowIn apart plain (first ▸ anchor) (List.mem_singleton.mpr first) listed
      · next other =>
          have second := side.resolve_left other
          exact lawful_reverse powf now cache keyed key _ borrowAmounts high low divergenceBps
            highIn lowIn apart plain (second ▸ anchor) (List.mem_singleton.mpr second) listed

/-! The scan of stablecoins. -/

variable (powi : Nat → Double)

/-- Tokens the stablecoin scan borrows. -/
def stableBorrowable : List Pubkey := [wsol, usdc, usdt]

/-- A pool the scan may use: one of the cache, on SOL and the stablecoin. -/
def OnPair (stable : Pubkey) (pool : DexPool) : Prop :=
  cache.get pool.poolAddress = some pool ∧ mints pool = s(wsol, stable)

theorem trades_of_mints (pool : DexPool) (tokenIn tokenOut : Pubkey)
    (pair : mints pool = s(tokenIn, tokenOut)) :
    Trades pool (decide (pool.tokenA = tokenIn)) tokenIn tokenOut := by
  apply trades_of_pair
  rcases Sym2.eq_iff.mp pair with same | ⟨first, second⟩
  · exact Or.inl same
  · exact Or.inr ⟨second, first⟩

theorem lawful_stablecoin (borrowToken midToken : Pubkey) (spreadBps borrowAmount : Nat)
    (borrowAmounts : List Nat) (buyPool sellPool : DexPool) (route : RouteParams Double)
    (amount : borrowAmount ∈ borrowAmounts) (borrowable : borrowToken ∈ stableBorrowable)
    (buyCached : cache.get buyPool.poolAddress = some buyPool)
    (sellCached : cache.get sellPool.poolAddress = some sellPool)
    (buyMints : mints buyPool = s(borrowToken, midToken))
    (sellMints : mints sellPool = s(borrowToken, midToken))
    (apart : buyPool.poolAddress ≠ sellPool.poolAddress)
    (built : buildStablecoinRoute powf now buyPool sellPool borrowToken midToken spreadBps
      borrowAmount = some route) :
    Lawful powf now cache stableBorrowable borrowAmounts route := by
  simp only [buildStablecoinRoute, Option.ite_none_left_eq_some] at built
  rcases built with ⟨-, -, -, gains, -, nets, same⟩
  have there := trades_of_mints buyPool borrowToken midToken buyMints
  have back := trades_of_mints sellPool midToken borrowToken (sellMints.trans Sym2.eq_swap)
  generalize mid : buyPool.quote powf now (decide (buyPool.tokenA = borrowToken)) borrowAmount =
    midAmount at gains nets same
  have bound := quote_lt powf now sellPool (decide (sellPool.tokenA = midToken)) midAmount
  generalize final : sellPool.quote powf now (decide (sellPool.tokenA = midToken)) midAmount =
    finalAmount at gains nets same bound
  have positive : 0 < netProfit (finalAmount - borrowAmount) := not_le.mp nets
  have exactly : netProfit (finalAmount - borrowAmount) =
      ((finalAmount - borrowAmount : Nat) : Int) - (txFeePerHop * 2 : Nat) :=
    (signedNet_of_pos _ _ (by omega) (by decide) positive).1
  cases same
  refine ⟨⟨borrowToken, borrowable, rfl, rfl, rfl⟩, ⟨finalAmount, ?_, ?_, ?_⟩,
    ⟨_, _, rfl, apart⟩, amount⟩
  · exact ⟨⟨buyPool, _, buyCached, there, mid.symm⟩, ⟨sellPool, _, sellCached, back, final.symm⟩,
      rfl⟩
  · dsimp only
    rw [exactly]
    omega
  · dsimp only
    exact positive

theorem mem_of_maxByPrice (pools : List (Priced Double)) (high : Priced Double)
    (found : maxByPrice pools = some high) : high ∈ pools := by
  cases pools with
  | nil => cases found
  | cons head tail =>
      rw [← Option.some.inj found]
      apply mem_of_foldl_choice
      intro best next
      split
      · exact Or.inl rfl
      · exact Or.inr rfl

theorem mem_of_minByPrice (pools : List (Priced Double)) (low : Priced Double)
    (found : minByPrice pools = some low) : low ∈ pools := by
  cases pools with
  | nil => cases found
  | cons head tail =>
      rw [← Option.some.inj found]
      apply mem_of_foldl_choice
      intro best next
      split
      · exact Or.inr rfl
      · exact Or.inl rfl

/-- Two places of the list of priced pools hold two pools. -/
theorem apart_of_places (stable : Pubkey) (distinct : (cache.poolsForPair wsol stable).Nodup)
    (first second : Priced Double) (places : first.2 ≠ second.2)
    (firstIn : first ∈ (pricedPools now powi cache stable).zipIdx)
    (secondIn : second ∈ (pricedPools now powi cache stable).zipIdx) :
    first.1.1 ≠ second.1.1 := by
  have names : ((pricedPools now powi cache stable).map Prod.fst).Nodup := by
    have whole : (((cache.poolsForPair wsol stable).filter isEligiblePool).map
        (fun pool => (pool, impliedSolPrice now powi pool))).map Prod.fst =
          (cache.poolsForPair wsol stable).filter isEligiblePool := by
      rw [List.map_map]
      exact List.map_id _
    have fewer : ((pricedPools now powi cache stable).map Prod.fst).Sublist
        ((cache.poolsForPair wsol stable).filter isEligiblePool) :=
      whole ▸ List.filter_sublist.map Prod.fst
    exact List.Nodup.sublist (fewer.trans List.filter_sublist) distinct
  intro same
  apply places
  have firstAt := List.mem_zipIdx_iff_getElem?.mp firstIn
  have secondAt := List.mem_zipIdx_iff_getElem?.mp secondIn
  have inside := (List.getElem?_eq_some_iff.mp firstAt).1
  apply (List.getElem?_inj (by rwa [List.length_map]) names).mp
  rw [List.getElem?_map, List.getElem?_map, firstAt, secondAt, Option.map_some, Option.map_some,
    same]

theorem lawful_stablecoinPair (exactly : IndexExact cache)
    (keyed : ∀ address pool, cache.get address = some pool → pool.poolAddress = address)
    (stable : Pubkey) (borrowable : stable ∈ stableBorrowable) (borrowAmounts : List Nat)
    (route : RouteParams Double)
    (member : route ∈ scanStablecoinPair powf now powi cache stable borrowAmounts) :
    Lawful powf now cache stableBorrowable borrowAmounts route := by
  simp only [scanStablecoinPair] at member
  split at member
  · cases member
  · split at member
    · next expensive maxPrice maxIdx cheap minPrice minIdx highest lowest =>
        have highIn := mem_of_maxByPrice _ _ highest
        have lowIn := mem_of_minByPrice _ _ lowest
        have onPair : ∀ priced ∈ (pricedPools now powi cache stable).zipIdx,
            OnPair cache stable priced.1.1 := by
          intro priced inside
          have listed := List.mem_of_getElem? (List.mem_zipIdx_iff_getElem?.mp inside)
          rcases List.mem_map.mp (List.mem_of_mem_filter listed) with ⟨pool, eligible, same⟩
          rw [← same]
          rcases ((exactly wsol stable).2 pool).mp (List.mem_of_mem_filter eligible) with
            ⟨⟨address, found⟩, pair⟩
          have own := keyed address pool found
          exact ⟨own.symm ▸ found, pair⟩
        split at member
        · cases member
        · next places =>
            have apart := apart_of_places now cache powi stable (exactly wsol stable).1 _ _ places
              highIn lowIn
            have high := onPair _ highIn
            have low := onPair _ lowIn
            have addresses : expensive.poolAddress ≠ cheap.poolAddress := by
              intro same
              have cached := high.1
              rw [same, low.1] at cached
              exact apart (Option.some.inj cached).symm
            split at member
            · cases member
            · have listed := (mem_byNetProfit _ _).mp (List.mem_of_mem_take member)
              rcases List.mem_append.mp listed with buys | sells
              · rcases List.mem_filterMap.mp buys with ⟨borrowAmount, amount, built⟩
                exact lawful_stablecoin powf now cache stable wsol _ borrowAmount borrowAmounts
                  cheap expensive route amount borrowable low.1 high.1
                  (low.2.trans Sym2.eq_swap) (high.2.trans Sym2.eq_swap) (Ne.symm addresses) built
              · rcases List.mem_filterMap.mp sells with ⟨borrowAmount, amount, built⟩
                exact lawful_stablecoin powf now cache wsol stable _ borrowAmount borrowAmounts
                  expensive cheap route amount (by simp [stableBorrowable]) high.1 low.1
                  high.2 low.2 addresses built
    · cases member

end Promise

section Runs

variable (powf : Double → Double → Double) (powi : Nat → Double) (ops : List CacheOp)
  (now : Instant) (borrowAmounts : List Nat)

theorem keyed_run (address : Pubkey) (pool : DexPool)
    (found : (run (applyOp powf) PoolStateCache.new ops).get address = some pool) :
    pool.poolAddress = address :=
  ((coherent_run powf ops ops (fun _ member => member)).cached address pool found).1

/-- Over every cache that operations lead to, the routes of the graduation scan, of the scan of
Meteora against Orca and of the scan of staking tokens are lawful and come best first. The last
one borrows nothing but SOL. -/
theorem cache_scans_lawful (tokenMint : Pubkey) :
    ∀ scan ∈ [(anchorTokens, scanGraduationArb powf now
        (run (applyOp powf) PoolStateCache.new ops) tokenMint borrowAmounts),
      (anchorTokens, scanBinDivergence powf now (run (applyOp powf) PoolStateCache.new ops)
        borrowAmounts),
      ([wsol], scanLstOpportunities powf now (run (applyOp powf) PoolStateCache.new ops)
        borrowAmounts)],
    (∀ route ∈ scan.2, Lawful powf now (run (applyOp powf) PoolStateCache.new ops) scan.1
      borrowAmounts route) ∧
    scan.2.Pairwise (fun earlier later => later.netProfit ≤ earlier.netProfit) := by
  have keyed := keyed_run powf ops
  generalize run (applyOp powf) PoolStateCache.new ops = cache at keyed ⊢
  have graduation : (scanGraduationArb powf now cache tokenMint borrowAmounts).Pairwise
      (fun earlier later => later.netProfit ≤ earlier.netProfit) := by
    simp only [scanGraduationArb]
    split
    · exact List.Pairwise.nil
    · exact sorted_byNetProfit _
  simp only [List.forall_mem_cons, List.not_mem_nil, false_implies, implies_true, and_true]
  exact ⟨⟨lawful_graduation powf now cache keyed tokenMint borrowAmounts, graduation⟩,
    ⟨lawful_binDivergence powf now cache keyed borrowAmounts, sorted_byNetProfit _⟩,
    ⟨lawful_lst powf now cache keyed borrowAmounts, sorted_byNetProfit _⟩⟩

end Runs

def dollarPool (address reserveB : Nat) : DexPool :=
  { graduatedPool wsol usdc with poolAddress := .ofNat address, reserveB := reserveB }

/-- Two pools of SOL and USDC whose prices are two and a half percent apart. -/
def dollarPools : List CacheOp :=
  [.upsert (dollarPool 1 (206 * 10 ^ 9)), .upsert (dollarPool 2 (211 * 10 ^ 9))]

def dollarCache : PoolStateCache :=
  run (applyOp (fun base _ => base : Double → Double → Double)) PoolStateCache.new dollarPools

/-- The same with reserves that are not those a graduation is guessed at. -/
def tradedPools : List DexPool :=
  [{ dollarPool 1 (206 * 10 ^ 9) with reserveA := 80 * 10 ^ 9 },
    { dollarPool 2 (211 * 10 ^ 9) with reserveA := 80 * 10 ^ 9 }]

def tradedCache : PoolStateCache :=
  run (applyOp (fun base _ => base : Double → Double → Double)) PoolStateCache.new
    (tradedPools.map .upsert)

theorem cache_scans_lawful_tradedPools :
    (∀ route ∈ scanGraduationArb (fun base _ => base) 0 tradedCache usdc [100000000],
      Lawful (fun base _ => base) 0 tradedCache anchorTokens [100000000] route) ∧
    (graduationRoutes (fun base _ => base : Double → Double → Double) 0 [100000000]
      (pairKey wsol usdc) tradedPools).length = 2 := by
  refine ⟨?_, by decide +kernel⟩
  have scans := cache_scans_lawful (fun base _ => base) (tradedPools.map .upsert) 0 [100000000]
    usdc
  rw [List.forall_mem_cons] at scans
  have first := scans.1.1
  dsimp only at first
  rw [tradedCache]
  exact first

end Helios.PairScanners
