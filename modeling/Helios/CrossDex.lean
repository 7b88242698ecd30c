import Helios.PoolCache

/-! The cross-DEX scanner: two pools of one token pair whose rates differ give a
two-hop route, borrow to buy on one and sell on the other. -/

namespace Helios.CrossDex

open Machine FloatArith

def minMarginAboveFeesBps : Nat := 30
def whaleBackrunMarginBps : Nat := 15
def minReserve : Nat := 1000000
def txFeePerHop : Nat := 5000
def defaultReferenceAmount : Nat := 100000000
def maxPairRoutes : Nat := 3

/-- Tokens a flash loan can be taken in. -/
def anchorTokens : List Pubkey := [wsol, usdc]

def isAnchor (token : Pubkey) : Bool := decide (token ∈ anchorTokens)

def pairKey (a b : Pubkey) : Pubkey × Pubkey := if a < b then (a, b) else (b, a)

def dexFeeBps : DexType → Nat
  | .raydiumAmmV4 => 25
  | .raydiumClmm => 25
  | .orcaWhirlpool => 30
  | .meteoraDlmm => 30
  | .pumpSwap => 100
  | .fluxbeam => 30
  | .saber => 4
  | .raydiumCpmm => 25
  | .unknown => 50

def dexProgramFor : DexType → Pubkey
  | .raydiumAmmV4 => DexPrograms.raydiumAmmV4
  | .raydiumClmm => DexPrograms.raydiumClmm
  | .orcaWhirlpool => DexPrograms.orcaWhirlpool
  | .meteoraDlmm => DexPrograms.meteoraDlmm
  | .pumpSwap => DexPrograms.pumpswap
  | .fluxbeam => DexPrograms.fluxbeam
  | .saber => DexPrograms.saber
  | .raydiumCpmm => DexPrograms.raydiumCpmm
  | .unknown => default

/-- The program keys as numbers, so that they need to be read from Base58 once. -/
def dexProgramNumber : DexType → Nat
  | .raydiumAmmV4 => 34307378574122751251753648456821433629702160761243254248185250197633836157645
  | .raydiumClmm => 75009356853976929659943414926574456823275450602745972963014244811826130862110
  | .orcaWhirlpool => 6338400779188879694835442338119989991763804279920687834040273975642487814569
  | .meteoraDlmm => 2222480940325335872388304432163824986101655287136298596997600281027040817340
  | .pumpSwap => 5464630119619898166266341678619113288817485149253204375108042491183227316323
  | .fluxbeam => 96344021714393832629292960091942678313632800139531830839472458359909377402079
  | .saber => 2948614366053330234680459565282474992477022350517471136405059047726959493046
  | .raydiumCpmm => 76515703900233190660591128275926181994727486580522254552177469512830257523827
  | .unknown => 0

theorem toNat_dexProgramFor (dex : DexType) : (dexProgramFor dex).toNat = dexProgramNumber dex := by
  cases dex <;> decide +kernel

theorem dexProgramFor_inj (first second : DexType) :
    dexProgramFor first = dexProgramFor second ↔ first = second := by
  constructor
  · intro same
    have numbers : dexProgramNumber first = dexProgramNumber second := by
      rw [← toNat_dexProgramFor, ← toNat_dexProgramFor, same]
    cases first <;> cases second <;> first | rfl | exact absurd numbers (by decide)
  · exact congrArg dexProgramFor

theorem fromProgramId_eq (key : Pubkey) :
    DexType.fromProgramId key =
      if key = dexProgramFor .raydiumAmmV4 then .raydiumAmmV4
      else if key = dexProgramFor .raydiumClmm then .raydiumClmm
      else if key = dexProgramFor .orcaWhirlpool then .orcaWhirlpool
      else if key = dexProgramFor .meteoraDlmm then .meteoraDlmm
      else if key = dexProgramFor .pumpSwap then .pumpSwap
      else if key = dexProgramFor .fluxbeam then .fluxbeam
      else if key = dexProgramFor .saber then .saber
      else if key = dexProgramFor .raydiumCpmm then .raydiumCpmm
      else .unknown := rfl

theorem fromProgramId_dexProgramFor (dex : DexType) :
    DexType.fromProgramId (dexProgramFor dex) = dex := by
  rw [fromProgramId_eq]
  simp only [dexProgramFor_inj]
  cases dex <;> rfl

theorem fromProgramId_unknown (key : Pubkey)
    (other : ∀ dex, dex ≠ .unknown → key ≠ dexProgramFor dex) :
    DexType.fromProgramId key = .unknown := by
  rw [fromProgramId_eq, if_neg (other .raydiumAmmV4 (by decide)),
    if_neg (other .raydiumClmm (by decide)), if_neg (other .orcaWhirlpool (by decide)),
    if_neg (other .meteoraDlmm (by decide)), if_neg (other .pumpSwap (by decide)),
    if_neg (other .fluxbeam (by decide)), if_neg (other .saber (by decide)),
    if_neg (other .raydiumCpmm (by decide))]

/-- A program the executor knows is the program of its DEX. -/
theorem program_of_fromProgramId (key : Pubkey) (known : DexType.fromProgramId key ≠ .unknown) :
    key = dexProgramFor (DexType.fromProgramId key) := by
  by_cases listed : ∃ dex, key = dexProgramFor dex
  · rcases listed with ⟨dex, same⟩
    rw [same, fromProgramId_dexProgramFor]
  · exact absurd (fromProgramId_unknown key (fun dex _ => not_exists.mp listed dex)) known

section Tiers

variable {F : Type}

def hopDexTypes (cache : PoolStateCache) (route : RouteParams F) : List DexType :=
  route.hops.filterMap (fun hop => (cache.get hop.pool).map DexPool.dexType)

/-- An Orca hop that the tier filter drops: no metadata, or too little active
liquidity. -/
def fragileOrca (cache : PoolStateCache) (hop : Hop F) : Bool :=
  match cache.get hop.pool with
  | none => false
  | some pool =>
      if pool.dexType = .orcaWhirlpool then
        match pool.orcaMeta with
        | some orca => decide (orca.liquidity < 1000000000)
        | none => true
      else false

def routeTier (cache : PoolStateCache) (route : RouteParams F) : Nat :=
  let dexTypes := hopDexTypes cache route
  if dexTypes.all (fun dex => dex = .raydiumAmmV4) then 1
  else if dexTypes.all (fun dex => dex = .raydiumAmmV4 ∨ dex = .meteoraDlmm) then 2
  else if dexTypes.any (fun dex => dex = .pumpSwap) then 3
  else if dexTypes.any (fun dex => dex = .orcaWhirlpool) then
    if route.hops.any (fragileOrca cache) then 99 else 4
  else 5

/-- Tiers are assigned, fragile routes dropped, the rest sorted by net profit. -/
def rankRoutes (cache : PoolStateCache) (routes : List (RouteParams F)) :
    List (RouteParams F) :=
  ((routes.map (fun route => { route with tier := routeTier cache route })).filter
    (fun route => route.tier < 99)).mergeSort
      (fun first second => decide (second.netProfit ≤ first.netProfit))

theorem mem_rankRoutes (cache : PoolStateCache) (routes : List (RouteParams F))
    (route : RouteParams F) :
    route ∈ rankRoutes cache routes ↔
      ∃ found ∈ routes, routeTier cache found < 99 ∧
        route = { found with tier := routeTier cache found } := by
  rw [rankRoutes, List.mem_mergeSort, List.mem_filter, List.mem_map]
  constructor
  · intro ⟨⟨found, member, same⟩, low⟩
    subst same
    exact ⟨found, member, of_decide_eq_true low, rfl⟩
  · intro ⟨found, member, low, same⟩
    subst same
    exact ⟨⟨found, member, rfl⟩, decide_eq_true low⟩

end Tiers

section Routes

variable {F : Type} [FloatArith F]

/-- 5 %. -/
def maxImpactPct : F := ofNat 5

def maxReturnMultiplier : F := ofRat (105 / 100)

/-- The reserve a swap pays into. -/
def reserveIn (pool : DexPool) (aToB : Bool) : Nat := if aToB then pool.reserveA else pool.reserveB

def priceImpact (pool : DexPool) (aToB : Bool) (amount : Nat) : F :=
  mul (div (ofNat amount) (ofNat (max (reserveIn pool aToB) 1))) (ofNat 100)

def netProfit (grossProfit : Nat) : Int :=
  wrapI64 (wrapI64 grossProfit - (txFeePerHop * 2 : Nat))

variable (powf : F → F → F) (now : Instant)

/-- The body the two builders share: borrow `tokenIn`, swap it to `tokenMid` on
the first pool and back on the second. Quotes look at the effective reserves,
impacts at the polled ones. -/
def twoHopRoute (first : DexPool) (firstAToB : Bool) (second : DexPool) (secondAToB : Bool)
    (tokenIn tokenMid : Pubkey) (borrowAmount : Nat) : Option (RouteParams F) :=
  let midAmount := first.quote powf now firstAToB borrowAmount
  let impact1 : F := priceImpact first firstAToB borrowAmount
  if midAmount = 0 ∨ lt maxImpactPct impact1 then none
  else
    let finalAmount := second.quote powf now secondAToB midAmount
    let impact2 : F := priceImpact second secondAToB midAmount
    if finalAmount = 0 ∨ lt maxImpactPct impact2 then none
    else if finalAmount ≤ borrowAmount then none
    else if lt (mul (ofNat borrowAmount) (maxReturnMultiplier : F)) (ofNat finalAmount) then none
    else
      let grossProfit := finalAmount - borrowAmount
      if netProfit grossProfit ≤ 0 then none
      else
        some {
          hops := [
            { pool := first.poolAddress
              dexProgram := dexProgramFor first.dexType
              tokenIn := tokenIn
              tokenOut := tokenMid
              amountOut := midAmount
              priceImpact := impact1 },
            { pool := second.poolAddress
              dexProgram := dexProgramFor second.dexType
              tokenIn := tokenMid
              tokenOut := tokenIn
              amountOut := finalAmount
              priceImpact := impact2 }]
          borrowAmount := borrowAmount
          grossProfit := grossProfit
          netProfit := netProfit grossProfit
          riskFactor := FloatArith.min (div (FloatArith.max impact1 impact2) (ofNat 100))
            (ofRat (95 / 100))
          strategy := "cross-dex"
          tier := 0 }

/-- Borrow `tokenA`, buy `tokenB`, sell it back. The divergence is only logged. -/
def buildCrossDexRoute (buyPool : DexPool) (buyCanonical : Bool) (sellPool : DexPool)
    (sellCanonical : Bool) (tokenA tokenB : Pubkey) (borrowAmount _divergenceBps : Nat) :
    Option (RouteParams F) :=
  if reserveIn buyPool buyCanonical < saturatingMul64 borrowAmount 10 then none
  else
    twoHopRoute powf now buyPool buyCanonical sellPool (!sellCanonical) tokenA tokenB borrowAmount

/-- Borrow `tokenB`, buy `tokenA`, sell it back. The ten-fold reserve check of
the forward direction is absent here. -/
def buildCrossDexRouteReverse (buyAPool : DexPool) (buyACanonical : Bool) (sellAPool : DexPool)
    (sellACanonical : Bool) (tokenA tokenB : Pubkey) (borrowAmount _divergenceBps : Nat) :
    Option (RouteParams F) :=
  twoHopRoute powf now buyAPool (!buyACanonical) sellAPool sellACanonical tokenB tokenA borrowAmount

/-- What is known of a returned two-hop route. -/
structure TwoHop (first : DexPool) (firstAToB : Bool) (second : DexPool) (secondAToB : Bool)
    (tokenIn tokenMid : Pubkey) (borrowAmount : Nat) (route : RouteParams F) : Prop where
  hops : ∃ firstHop secondHop : Hop F, route.hops = [firstHop, secondHop] ∧
    firstHop.pool = first.poolAddress ∧ firstHop.dexProgram = dexProgramFor first.dexType ∧
    firstHop.tokenIn = tokenIn ∧ firstHop.tokenOut = tokenMid ∧
    firstHop.amountOut = first.quote powf now firstAToB borrowAmount ∧
    secondHop.pool = second.poolAddress ∧ secondHop.dexProgram = dexProgramFor second.dexType ∧
    secondHop.tokenIn = tokenMid ∧ secondHop.tokenOut = tokenIn ∧
    secondHop.amountOut =
      second.quote powf now secondAToB (first.quote powf now firstAToB borrowAmount)
  borrowed : route.borrowAmount = borrowAmount
  firstImpact : lt maxImpactPct (priceImpact first firstAToB borrowAmount : F) = false
  secondImpact : lt maxImpactPct (priceImpact second secondAToB
    (first.quote powf now firstAToB borrowAmount) : F) = false
  gains : borrowAmount < second.quote powf now secondAToB
    (first.quote powf now firstAToB borrowAmount)
  capped : lt (mul (ofNat borrowAmount) (maxReturnMultiplier : F)) (ofNat
    (second.quote powf now secondAToB (first.quote powf now firstAToB borrowAmount))) = false
  nets : 0 < netProfit (second.quote powf now secondAToB
    (first.quote powf now firstAToB borrowAmount) - borrowAmount)

theorem twoHopRoute_spec (first : DexPool) (firstAToB : Bool) (second : DexPool)
    (secondAToB : Bool) (tokenIn tokenMid : Pubkey) (borrowAmount : Nat) (route : RouteParams F)
    (built : twoHopRoute powf now first firstAToB second secondAToB tokenIn tokenMid borrowAmount =
      some route) :
    TwoHop powf now first firstAToB second secondAToB tokenIn tokenMid borrowAmount route := by
  simp only [twoHopRoute, Option.ite_none_left_eq_some] at built
  rcases built with ⟨firstOk, secondOk, gains, capped, nets, same⟩
  have same := (Option.some.inj same).symm
  subst same
  exact {
    hops := ⟨_, _, rfl, rfl, rfl, rfl, rfl, rfl, rfl, rfl, rfl, rfl, rfl⟩
    borrowed := rfl
    firstImpact := Bool.eq_false_iff.mpr (fun exceeds => firstOk (Or.inr exceeds))
    secondImpact := Bool.eq_false_iff.mpr (fun exceeds => secondOk (Or.inr exceeds))
    gains := not_le.mp gains
    capped := Bool.eq_false_iff.mpr capped
    nets := not_le.mp nets }

end Routes

section Scan

variable {F : Type} [FloatArith F]

/-- A pool with its rate in the canonical direction. -/
structure PoolRate (F : Type) where
  pool : DexPool
  rateAToB : F
  canonicalOrder : Bool

def maxByRate : List (PoolRate F) → Option (PoolRate F)
  | [] => none
  | head :: tail => some (tail.foldl (fun best next =>
      if lt next.rateAToB best.rateAToB then best else next) head)

def minByRate : List (PoolRate F) → Option (PoolRate F)
  | [] => none
  | head :: tail => some (tail.foldl (fun best next =>
      if lt next.rateAToB best.rateAToB then next else best) head)

/-- The two extreme pools of a pair, where they differ by more than both fees and
the margin. -/
def divergentPools (marginBps : Nat) (pools : List (PoolRate F)) :
    Option (PoolRate F × PoolRate F × Nat) :=
  if pools.length < 2 then none
  else
    match maxByRate pools, minByRate pools with
    | some high, some low =>
        if high.pool.poolAddress = low.pool.poolAddress ∨ le high.rateAToB low.rateAToB then none
        else
          let divergenceBps :=
            toU64 (mul (sub (div high.rateAToB low.rateAToB) (ofNat 1)) (ofNat 10000))
          if divergenceBps < dexFeeBps high.pool.dexType + dexFeeBps low.pool.dexType + marginBps
          then none
          else some (high, low, divergenceBps)
    | _, _ => none

/-- A flash-loanable side, and not a pair of two stablecoins. -/
def pairAllowed (tokenA tokenB : Pubkey) : Bool :=
  (isAnchor tokenA || isAnchor tokenB) &&
    !decide ((tokenA = usdc ∧ tokenB = usdt) ∨ (tokenA = usdt ∧ tokenB = usdc)) &&
    !(isAnchor tokenA && isAnchor tokenB && !decide (tokenA = wsol ∨ tokenB = wsol))

def hasReserves (pool : DexPool) : Bool :=
  decide (minReserve ≤ pool.reserveA ∧ minReserve ≤ pool.reserveB)

def raydiumVaultsKnown (pool : DexPool) : Bool :=
  if pool.dexType = .raydiumAmmV4 then
    match pool.raydiumMeta with
    | some raydium => decide (raydium.vaultA ≠ default ∧ raydium.vaultB ≠ default)
    | none => false
  else true

/-- The metadata the full scan asks for, "for TX building". -/
def completeMetadata (pool : DexPool) : Bool :=
  match pool.dexType with
  | .raydiumAmmV4 =>
      match pool.raydiumMeta with
      | some raydium => decide (raydium.vaultA ≠ default ∧ raydium.marketId ≠ default)
      | none => false
  | .orcaWhirlpool =>
      match pool.orcaMeta with
      | some orca => decide (orca.tickSpacing ≠ 0 ∧ orca.tokenVaultA ≠ default)
      | none => false
  | .meteoraDlmm =>
      match pool.meteoraMeta with
      | some meteora => decide (meteora.tokenVaultA ≠ default)
      | none => false
  | _ => true

/-- The filter of the full scan. -/
def eligible (pool : DexPool) : Bool :=
  hasReserves pool && completeMetadata pool &&
    !decide (pool.dexType = .unknown ∨ pool.dexType = .raydiumClmm ∨
      pool.dexType = .raydiumCpmm) &&
    raydiumVaultsKnown pool

/-- The filter of the pair scan. -/
def eligibleForPair (pool : DexPool) : Bool :=
  hasReserves pool && !decide (pool.dexType = .unknown ∨ pool.dexType = .raydiumClmm) &&
    raydiumVaultsKnown pool

variable (powf : F → F → F) (now : Instant)

def poolRate (pairFirst : Pubkey) (borrowAmounts : List Nat) (pool : DexPool) :
    Option (PoolRate F) :=
  let canonicalOrder := decide (pool.tokenA = pairFirst)
  let referenceAmount := borrowAmounts.head?.getD defaultReferenceAmount
  let out := pool.quote powf now canonicalOrder referenceAmount
  if out = 0 then none
  else
    let rateAToB : F := div (ofNat out) (ofNat referenceAmount)
    if le rateAToB (ofNat 0) || !isFinite rateAToB then none
    else some ⟨pool, rateAToB, canonicalOrder⟩

abbrev PairPools (F : Type) := HashMap (Pubkey × Pubkey) (List (PoolRate F))

/-- One pool of the grouping loop. -/
def addPool (borrowAmounts : List Nat) (pairPools : PairPools F) (pool : DexPool) : PairPools F :=
  if eligible pool then
    let key := pairKey pool.tokenA pool.tokenB
    match poolRate powf now key.1 borrowAmounts pool with
    | some rate => pairPools.insert key ((HashMap.get pairPools key).getD [] ++ [rate])
    | none => pairPools
  else pairPools

def groupPools (borrowAmounts : List Nat) (cache : PoolStateCache) : PairPools F :=
  (HashMap.values cache.inner).foldl (addPool powf now borrowAmounts) HashMap.empty

/-- The first route of highest net profit. -/
def bestRoute (routes : List (RouteParams F)) : Option (RouteParams F) :=
  routes.foldl (fun best route =>
    if (best.map (fun held => decide (held.netProfit < route.netProfit))).getD true then some route
    else best) none

def forwardRoutes (high low : PoolRate F) (pair : Pubkey × Pubkey) (borrowAmounts : List Nat)
    (divergenceBps : Nat) : List (RouteParams F) :=
  borrowAmounts.filterMap (fun borrowAmount =>
    buildCrossDexRoute powf now high.pool high.canonicalOrder low.pool low.canonicalOrder
      pair.1 pair.2 borrowAmount divergenceBps)

def reverseRoutes (high low : PoolRate F) (pair : Pubkey × Pubkey) (borrowAmounts : List Nat)
    (divergenceBps : Nat) : List (RouteParams F) :=
  borrowAmounts.filterMap (fun borrowAmount =>
    buildCrossDexRouteReverse powf now low.pool low.canonicalOrder high.pool high.canonicalOrder
      pair.1 pair.2 borrowAmount divergenceBps)

/-- The routes of one pair of the full scan: at most one a direction. -/
def pairRoutes (borrowAmounts : List Nat) (pair : Pubkey × Pubkey) (pools : List (PoolRate F)) :
    List (RouteParams F) :=
  if pairAllowed pair.1 pair.2 then
    match divergentPools minMarginAboveFeesBps pools with
    | none => []
    | some (high, low, divergenceBps) =>
        (if isAnchor pair.1 then
          (bestRoute (forwardRoutes powf now high low pair borrowAmounts divergenceBps)).toList
        else []) ++
        (if isAnchor pair.2 then
          (bestRoute (reverseRoutes powf now high low pair borrowAmounts divergenceBps)).toList
        else [])
  else []

def scanCrossDexOpportunities (cache : PoolStateCache) (borrowAmounts : List Nat) :
    List (RouteParams F) :=
  rankRoutes cache ((groupPools powf now borrowAmounts cache).entries.flatMap (fun entry =>
    pairRoutes powf now borrowAmounts entry.1 entry.2))

/-- The pools of one pair, as the pair scan collects them. -/
def poolsOfPair (borrowAmounts : List Nat) (key : Pubkey × Pubkey) (cache : PoolStateCache) :
    List (PoolRate F) :=
  ((HashMap.values cache.inner).filter (fun pool =>
    eligibleForPair pool && decide (pairKey pool.tokenA pool.tokenB = key))).filterMap
      (poolRate powf now key.1 borrowAmounts)

def scanPairOpportunities (cache : PoolStateCache) (tokenA tokenB : Pubkey)
    (borrowAmounts : List Nat) : List (RouteParams F) :=
  let key := pairKey tokenA tokenB
  if pairAllowed key.1 key.2 then
    match divergentPools whaleBackrunMarginBps (poolsOfPair powf now borrowAmounts key cache) with
    | none => []
    | some (high, low, divergenceBps) =>
        let routes :=
          (if isAnchor key.1 then forwardRoutes powf now high low key borrowAmounts divergenceBps
          else []) ++
          (if isAnchor key.2 then reverseRoutes powf now high low key borrowAmounts divergenceBps
          else [])
        (rankRoutes cache (routes.map (fun route =>
          { route with strategy := "whale-backrun" }))).take maxPairRoutes
  else []

theorem mem_of_foldl_choice {Item : Type} (choose : Item → Item → Item)
    (either : ∀ best next, choose best next = best ∨ choose best next = next) (head : Item)
    (tail : List Item) : tail.foldl choose head ∈ head :: tail := by
  induction tail generalizing head with
  | nil => exact List.mem_singleton.mpr rfl
  | cons next tail ih =>
      rw [List.foldl_cons]
      rcases List.mem_cons.mp (ih (choose head next)) with chosen | later
      · rw [chosen]
        rcases either head next with same | same
        · rw [same]
          exact List.mem_cons_self
        · rw [same]
          exact List.mem_cons_of_mem _ List.mem_cons_self
      · exact List.mem_cons_of_mem _ (List.mem_cons_of_mem _ later)

theorem mem_of_maxByRate (pools : List (PoolRate F)) (high : PoolRate F)
    (found : maxByRate pools = some high) : high ∈ pools := by
  cases pools with
  | nil => cases found
  | cons head tail =>
      rw [← Option.some.inj found]
      apply mem_of_foldl_choice
      intro best next
      split
      · exact Or.inl rfl
      · exact Or.inr rfl

theorem mem_of_minByRate (pools : List (PoolRate F)) (low : PoolRate F)
    (found : minByRate pools = some low) : low ∈ pools := by
  cases pools with
  | nil => cases found
  | cons head tail =>
      rw [← Option.some.inj found]
      apply mem_of_foldl_choice
      intro best next
      split
      · exact Or.inr rfl
      · exact Or.inl rfl

theorem mem_of_divergentPools (marginBps : Nat) (pools : List (PoolRate F))
    (high low : PoolRate F) (divergenceBps : Nat)
    (found : divergentPools marginBps pools = some (high, low, divergenceBps)) :
    high ∈ pools ∧ low ∈ pools := by
  unfold divergentPools at found
  split at found
  · cases found
  · split at found
    · next _ _ highest lowest =>
        split at found
        · cases found
        · dsimp only at found
          split at found
          · cases found
          · cases found
            exact ⟨mem_of_maxByRate pools high highest, mem_of_minByRate pools low lowest⟩
    · cases found

omit [FloatArith F] in
theorem mem_of_bestRoute (routes : List (RouteParams F)) (route : RouteParams F)
    (best : bestRoute routes = some route) : route ∈ routes := by
  have held : ∀ (rest : List (RouteParams F)) (start : Option (RouteParams F)),
      rest.foldl (fun best route =>
        if (best.map (fun held => decide (held.netProfit < route.netProfit))).getD true
        then some route else best) start = some route → start = some route ∨ route ∈ rest := by
    intro rest
    induction rest with
    | nil => exact fun start kept => Or.inl kept
    | cons head tail ih =>
        intro start kept
        rw [List.foldl_cons] at kept
        rcases ih _ kept with chosen | later
        · split at chosen
          · cases chosen
            exact Or.inr List.mem_cons_self
          · exact Or.inl chosen
        · exact Or.inr (List.mem_cons_of_mem _ later)
  rcases held routes none best with none | member
  · cases none
  · exact member

/-- A pool of the cache that passed a scan's filter for a pair. -/
structure Candidate (cache : PoolStateCache) (passes : DexPool → Bool) (key : Pubkey × Pubkey)
    (rate : PoolRate F) : Prop where
  cached : rate.pool ∈ HashMap.values cache.inner
  passed : passes rate.pool = true
  ofPair : pairKey rate.pool.tokenA rate.pool.tokenB = key
  order : rate.canonicalOrder = decide (rate.pool.tokenA = key.1)

theorem poolRate_spec (pairFirst : Pubkey) (borrowAmounts : List Nat) (pool : DexPool)
    (rate : PoolRate F) (found : poolRate powf now pairFirst borrowAmounts pool = some rate) :
    rate.pool = pool ∧ rate.canonicalOrder = decide (pool.tokenA = pairFirst) := by
  simp only [poolRate, Option.ite_none_left_eq_some] at found
  rw [← Option.some.inj found.2.2]
  exact ⟨rfl, rfl⟩

theorem candidate_of_mem_poolsOfPair (borrowAmounts : List Nat) (key : Pubkey × Pubkey)
    (cache : PoolStateCache) (rate : PoolRate F)
    (member : rate ∈ poolsOfPair powf now borrowAmounts key cache) :
    Candidate cache eligibleForPair key rate := by
  rcases List.mem_filterMap.mp member with ⟨pool, kept, found⟩
  rcases List.mem_filter.mp kept with ⟨cached, passes⟩
  rcases poolRate_spec powf now key.1 borrowAmounts pool rate found with ⟨same, order⟩
  rcases (Bool.and_eq_true _ _).mp passes with ⟨passed, ofPair⟩
  subst same
  exact ⟨cached, passed, of_decide_eq_true ofPair, order⟩

/-- Every pool of every group passed the full scan's filter. -/
def GroupsOf (cache : PoolStateCache) (pairPools : PairPools F) : Prop :=
  ∀ key, ∀ rate ∈ (HashMap.get pairPools key).getD [], Candidate cache eligible key rate

theorem groupsOf_addPool (borrowAmounts : List Nat) (cache : PoolStateCache)
    (pairPools : PairPools F) (pool : DexPool) (cached : pool ∈ HashMap.values cache.inner)
    (groups : GroupsOf cache pairPools) :
    GroupsOf cache (addPool powf now borrowAmounts pairPools pool) := by
  intro key rate member
  unfold addPool at member
  split at member
  · next passed =>
      dsimp only at member
      split at member
      · next found held =>
          rcases poolRate_spec powf now _ borrowAmounts pool found held with ⟨same, order⟩
          by_cases ofPair : key = pairKey pool.tokenA pool.tokenB
          · subst ofPair
            rw [HashMap.get_insert, Option.getD_some, List.mem_append, List.mem_singleton] at member
            rcases member with earlier | added
            · exact groups _ rate earlier
            · subst added same
              exact ⟨cached, passed, rfl, order⟩
          · rw [HashMap.get_insert_ne _ _ _ _ ofPair] at member
            exact groups key rate member
      · exact groups key rate member
  · exact groups key rate member

theorem groupsOf_groupPools (borrowAmounts : List Nat) (cache : PoolStateCache) :
    GroupsOf cache (groupPools powf now borrowAmounts cache) := by
  have added : ∀ (pools : List DexPool) (start : PairPools F),
      (∀ pool ∈ pools, pool ∈ HashMap.values cache.inner) → GroupsOf cache start →
        GroupsOf cache (pools.foldl (addPool powf now borrowAmounts) start) := by
    intro pools
    induction pools with
    | nil => exact fun start _ groups => groups
    | cons pool pools ih =>
        intro start inside groups
        apply ih
        · exact fun other member => inside other (List.mem_cons_of_mem _ member)
        · exact groupsOf_addPool powf now borrowAmounts cache start pool
            (inside pool List.mem_cons_self) groups
  apply added _ _ (fun pool member => member)
  intro key rate member
  rw [HashMap.get_empty] at member
  cases member

/-- A route a scan returns, up to the strategy and the tier written over: one of those
built for two candidates of a pair, from a side that can be borrowed. -/
def Found (cache : PoolStateCache) (passes : DexPool → Bool) (route : RouteParams F) : Prop :=
  ∃ (key : Pubkey × Pubkey) (high low : PoolRate F) (borrowAmounts : List Nat)
    (divergenceBps : Nat) (plain : RouteParams F),
    Candidate cache passes key high ∧ Candidate cache passes key low ∧
    ((isAnchor key.1 = true ∧
        plain ∈ forwardRoutes powf now high low key borrowAmounts divergenceBps) ∨
      (isAnchor key.2 = true ∧
        plain ∈ reverseRoutes powf now high low key borrowAmounts divergenceBps)) ∧
    route = { plain with strategy := route.strategy, tier := route.tier }

theorem found_of_scanCrossDex (cache : PoolStateCache) (borrowAmounts : List Nat)
    (route : RouteParams F)
    (scanned : route ∈ scanCrossDexOpportunities powf now cache borrowAmounts) :
    Found powf now cache eligible route := by
  rcases (mem_rankRoutes cache _ route).mp scanned with ⟨found, member, _, same⟩
  rcases List.mem_flatMap.mp member with ⟨entry, grouped, inPair⟩
  subst same
  have held : HashMap.get (groupPools powf now borrowAmounts cache) entry.1 = some entry.2 :=
    AList.mem_lookup_iff.mpr grouped
  have candidates : ∀ rate ∈ entry.2, Candidate cache eligible entry.1 rate := by
    intro rate inside
    apply groupsOf_groupPools powf now borrowAmounts cache entry.1 rate
    rw [held]
    exact inside
  unfold pairRoutes at inPair
  split at inPair
  · split at inPair
    · cases inPair
    · next high low divergenceBps divergent =>
        rcases mem_of_divergentPools _ _ _ _ _ divergent with ⟨highIn, lowIn⟩
        refine ⟨entry.1, high, low, borrowAmounts, divergenceBps, found, candidates high highIn,
          candidates low lowIn, ?_, rfl⟩
        rcases List.mem_append.mp inPair with forward | reverse
        · split at forward
          · next anchor => exact Or.inl ⟨anchor, mem_of_bestRoute _ _ (Option.mem_toList.mp forward)⟩
          · cases forward
        · split at reverse
          · next anchor => exact Or.inr ⟨anchor, mem_of_bestRoute _ _ (Option.mem_toList.mp reverse)⟩
          · cases reverse
  · cases inPair

theorem found_of_scanPair (cache : PoolStateCache) (tokenA tokenB : Pubkey)
    (borrowAmounts : List Nat) (route : RouteParams F)
    (scanned : route ∈ scanPairOpportunities powf now cache tokenA tokenB borrowAmounts) :
    Found powf now cache eligibleForPair route := by
  unfold scanPairOpportunities at scanned
  dsimp only at scanned
  split at scanned
  · split at scanned
    · cases scanned
    · next high low divergenceBps divergent =>
        rcases mem_of_divergentPools _ _ _ _ _ divergent with ⟨highIn, lowIn⟩
        have highIn := candidate_of_mem_poolsOfPair powf now borrowAmounts _ cache high highIn
        have lowIn := candidate_of_mem_poolsOfPair powf now borrowAmounts _ cache low lowIn
        rcases (mem_rankRoutes cache _ route).mp (List.mem_of_mem_take scanned) with
          ⟨found, member, _, same⟩
        rcases List.mem_map.mp member with ⟨plain, listed, renamed⟩
        subst same renamed
        refine ⟨_, high, low, borrowAmounts, divergenceBps, plain, highIn, lowIn, ?_, rfl⟩
        rcases List.mem_append.mp listed with forward | reverse
        · split at forward
          · next anchor => exact Or.inl ⟨anchor, forward⟩
          · cases forward
        · split at reverse
          · next anchor => exact Or.inr ⟨anchor, reverse⟩
          · cases reverse
  · cases scanned

/-- The hops and the borrowed amount of such a route: two candidates of one pair,
there and back. -/
structure Scanned (cache : PoolStateCache) (passes : DexPool → Bool) (route : RouteParams F) :
    Prop where
  built : ∃ (key : Pubkey × Pubkey) (first second : PoolRate F) (firstAToB secondAToB : Bool)
      (tokenIn tokenMid : Pubkey) (borrowAmount : Nat) (plain : RouteParams F),
    Candidate cache passes key first ∧ Candidate cache passes key second ∧
    ((tokenIn = key.1 ∧ tokenMid = key.2) ∨ (tokenIn = key.2 ∧ tokenMid = key.1)) ∧
    twoHopRoute powf now first.pool firstAToB second.pool secondAToB tokenIn tokenMid
      borrowAmount = some plain ∧
    route.hops = plain.hops ∧ route.borrowAmount = plain.borrowAmount

theorem scanned_forward (cache : PoolStateCache) (passes : DexPool → Bool)
    (key : Pubkey × Pubkey) (high low : PoolRate F) (borrowAmounts : List Nat)
    (divergenceBps : Nat) (highIn : Candidate cache passes key high)
    (lowIn : Candidate cache passes key low) (plain route : RouteParams F)
    (member : plain ∈ forwardRoutes powf now high low key borrowAmounts divergenceBps)
    (hops : route.hops = plain.hops) (borrowed : route.borrowAmount = plain.borrowAmount) :
    Scanned powf now cache passes route := by
  rcases List.mem_filterMap.mp member with ⟨borrowAmount, _, built⟩
  rw [buildCrossDexRoute, Option.ite_none_left_eq_some] at built
  exact ⟨key, high, low, _, _, key.1, key.2, borrowAmount, plain, highIn, lowIn,
    Or.inl ⟨rfl, rfl⟩, built.2, hops, borrowed⟩

theorem scanned_reverse (cache : PoolStateCache) (passes : DexPool → Bool)
    (key : Pubkey × Pubkey) (high low : PoolRate F) (borrowAmounts : List Nat)
    (divergenceBps : Nat) (highIn : Candidate cache passes key high)
    (lowIn : Candidate cache passes key low) (plain route : RouteParams F)
    (member : plain ∈ reverseRoutes powf now high low key borrowAmounts divergenceBps)
    (hops : route.hops = plain.hops) (borrowed : route.borrowAmount = plain.borrowAmount) :
    Scanned powf now cache passes route := by
  rcases List.mem_filterMap.mp member with ⟨borrowAmount, _, built⟩
  exact ⟨key, low, high, _, _, key.2, key.1, borrowAmount, plain, lowIn, highIn,
    Or.inr ⟨rfl, rfl⟩, built, hops, borrowed⟩

theorem scanned_of_found (cache : PoolStateCache) (passes : DexPool → Bool)
    (route : RouteParams F) (found : Found powf now cache passes route) :
    Scanned powf now cache passes route := by
  rcases found with ⟨key, high, low, borrowAmounts, divergenceBps, plain, highIn, lowIn, built, same⟩
  have hops : route.hops = plain.hops := by rw [same]
  have borrowed : route.borrowAmount = plain.borrowAmount := by rw [same]
  rcases built with ⟨-, forward⟩ | ⟨-, reverse⟩
  · exact scanned_forward powf now cache passes key high low borrowAmounts divergenceBps highIn lowIn
      plain route forward hops borrowed
  · exact scanned_reverse powf now cache passes key high low borrowAmounts divergenceBps highIn lowIn
      plain route reverse hops borrowed

theorem scanned_of_scanCrossDex (cache : PoolStateCache) (borrowAmounts : List Nat)
    (route : RouteParams F)
    (scanned : route ∈ scanCrossDexOpportunities powf now cache borrowAmounts) :
    Scanned powf now cache eligible route :=
  scanned_of_found powf now cache eligible route
    (found_of_scanCrossDex powf now cache borrowAmounts route scanned)

theorem scanned_of_scanPair (cache : PoolStateCache) (tokenA tokenB : Pubkey)
    (borrowAmounts : List Nat) (route : RouteParams F)
    (scanned : route ∈ scanPairOpportunities powf now cache tokenA tokenB borrowAmounts) :
    Scanned powf now cache eligibleForPair route :=
  scanned_of_found powf now cache eligibleForPair route
    (found_of_scanPair powf now cache tokenA tokenB borrowAmounts route scanned)

end Scan

end Helios.CrossDex
