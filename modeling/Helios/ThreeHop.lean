import Helios.ScannedRoutes

/-! The scan for triangles: an anchor, two other tokens and back, on the best first and
last pool and on any pool between. -/

namespace Helios.ThreeHop

open Machine FloatArith CrossDex ScannedRoutes

def maxNeighbors : Nat := 200
def marginAboveFeesBps : Nat := 20
def minNetProfit : Int := 1000
def maxThreeHopRoutes : Nat := 20

section Hops

variable {F : Type} [FloatArith F]

def hopOf (pool : DexPool) (tokenIn tokenOut : Pubkey) (amountOut : Nat) (impact : F) : Hop F :=
  { pool := pool.poolAddress
    dexProgram := dexProgramFor pool.dexType
    tokenIn := tokenIn
    tokenOut := tokenOut
    amountOut := amountOut
    priceImpact := impact }

def threeHopNet (grossProfit : Nat) : Int :=
  wrapI64 (wrapI64 grossProfit - (txFeePerHop * 3 : Nat))

/-- Three hops there and back, each at its pool's quote, with a profit that the cap on
the return has let through. -/
theorem profitable_threeHop (powf : F → F → F) (now : Instant) (cache : PoolStateCache)
    (keyed : ∀ address pool, cache.get address = some pool → pool.poolAddress = address)
    (pool1 pool2 pool3 : DexPool) (aToB1 aToB2 aToB3 : Bool) (mint tokenX tokenY : Pubkey)
    (amount1 amount2 amount3 : Nat) (impact1 impact2 impact3 : F) (route : RouteParams F)
    (anchor : mint ∈ anchorTokens) (in1 : pool1 ∈ HashMap.values cache.inner)
    (in2 : pool2 ∈ HashMap.values cache.inner) (in3 : pool3 ∈ HashMap.values cache.inner)
    (trades1 : Trades pool1 aToB1 mint tokenX) (trades2 : Trades pool2 aToB2 tokenX tokenY)
    (trades3 : Trades pool3 aToB3 tokenY mint)
    (quote1 : amount1 = pool1.quote powf now aToB1 route.borrowAmount)
    (quote2 : amount2 = pool2.quote powf now aToB2 amount1)
    (quote3 : amount3 = pool3.quote powf now aToB3 amount2)
    (hops : route.hops = [hopOf pool1 mint tokenX amount1 impact1,
      hopOf pool2 tokenX tokenY amount2 impact2, hopOf pool3 tokenY mint amount3 impact3])
    (gains : route.borrowAmount < amount3) (capped : 100 * amount3 ≤ 106 * route.borrowAmount)
    (nets : route.netProfit = threeHopNet (amount3 - route.borrowAmount))
    (positive : 0 < route.netProfit) :
    Profitable powf now cache (txFeePerHop * 3) route := by
  have small := quote_lt powf now pool3 aToB3 amount2
  rw [← quote3] at small
  have exactly : threeHopNet (amount3 - route.borrowAmount) =
      ((amount3 - route.borrowAmount : Nat) : Int) - (txFeePerHop * 3 : Nat) :=
    signedNet_eq _ _ (by omega) (by decide)
  constructor
  · refine ⟨mint, anchor, ?_⟩
    rw [hops]
    exact ⟨rfl, rfl, rfl, rfl⟩
  · refine ⟨amount3, ?_, ?_, positive⟩
    · rw [hops]
      exact ⟨⟨pool1, aToB1, cached_of_member cache keyed pool1 in1, trades1, quote1⟩,
        ⟨pool2, aToB2, cached_of_member cache keyed pool2 in2, trades2, quote2⟩,
        ⟨pool3, aToB3, cached_of_member cache keyed pool3 in3, trades3, quote3⟩, rfl⟩
    · rw [nets, exactly]
      omega

end Hops

section Scan

variable {F : Type} [FloatArith F] (powf : F → F → F) (now : Instant)

/-- The filter of this scan: the full one without the metadata for building. -/
def tradable (pool : DexPool) : Bool :=
  hasReserves pool &&
    !decide (pool.dexType = .unknown ∨ pool.dexType = .raydiumClmm ∨
      pool.dexType = .raydiumCpmm) &&
    raydiumVaultsKnown pool

abbrev Adjacency := HashMap Pubkey (List (Pubkey × DexPool))

/-- Every tradable pool under both its tokens. -/
def adjacency (cache : PoolStateCache) : Adjacency :=
  HashMap.pushAll HashMap.empty (((HashMap.values cache.inner).filter tradable).flatMap
    (fun pool => [(pool.tokenA, pool.tokenB, pool), (pool.tokenB, pool.tokenA, pool)]))

/-- The quote for a token paid in. -/
def quoteFrom (pool : DexPool) (token : Pubkey) (amountIn : Nat) : Nat :=
  pool.quote powf now (decide (pool.tokenA = token)) amountIn

/-- `max_by_key`: the last of the highest. -/
def lastHighest : List (DexPool × Nat) → Option (DexPool × Nat)
  | [] => none
  | head :: tail => some (tail.foldl (fun best next => if next.2 < best.2 then best else next) head)

def poolsTo (neighbors : List (Pubkey × DexPool)) (token : Pubkey) : List DexPool :=
  (neighbors.filter (fun entry => decide (entry.1 = token))).map Prod.snd

def bestPool (pools : List DexPool) (token : Pubkey) (amountIn : Nat) : Option (DexPool × Nat) :=
  lastHighest ((pools.map (fun pool => (pool, quoteFrom powf now pool token amountIn))).filter
    (fun entry => decide (0 < entry.2)))

/-- The float division by zero is infinite. -/
def returnTooHigh (F : Type) [FloatArith F] (borrowAmount finalAmount : Nat) : Bool :=
  decide (borrowAmount = 0) ||
    lt (maxReturnMultiplier : F) (div (ofNat finalAmount) (ofNat borrowAmount))

/-- The impact against the deeper side of a pool. -/
def deepImpact (pool : DexPool) (amountIn : Nat) : F :=
  mul (div (ofNat amountIn) (ofNat (max (max pool.reserveA pool.reserveB) 1))) (ofNat 100)

def threeHopRoute (pool1 pool2 pool3 : DexPool) (anchor tokenX tokenY : Pubkey)
    (borrowAmount : Nat) : Option (RouteParams F) :=
  let a1 := quoteFrom powf now pool1 anchor borrowAmount
  let a2 := quoteFrom powf now pool2 tokenX a1
  let a3 := quoteFrom powf now pool3 tokenY a2
  let impact1 : F := deepImpact pool1 borrowAmount
  let impact2 : F := deepImpact pool2 a1
  let impact3 : F := deepImpact pool3 a2
  if a1 = 0 then none
  else if a2 = 0 then none
  else if a3 = 0 ∨ a3 ≤ borrowAmount then none
  else if returnTooHigh F borrowAmount a3 then none
  else if threeHopNet (a3 - borrowAmount) ≤ 0 then none
  else if lt maxImpactPct impact1 ∨ lt maxImpactPct impact2 ∨ lt maxImpactPct impact3 then none
  else
    some {
      hops := [hopOf pool1 anchor tokenX a1 impact1, hopOf pool2 tokenX tokenY a2 impact2,
        hopOf pool3 tokenY anchor a3 impact3]
      borrowAmount := borrowAmount
      grossProfit := a3 - borrowAmount
      netProfit := threeHopNet (a3 - borrowAmount)
      riskFactor := ofRat (3 / 10)
      strategy := "cross_dex_3hop"
      tier := 0 }

/-- The test at the reference amount that a triangle has to pass first. -/
def worthwhile (F : Type) [FloatArith F] (refAmount finalAmount : Nat)
    (pool1 pool2 pool3 : DexPool) : Bool :=
  let returnPct : F := div (ofNat finalAmount) (ofNat refAmount)
  let combinedFeeBps := dexFeeBps pool1.dexType + dexFeeBps pool2.dexType + dexFeeBps pool3.dexType
  let marginBps := toU64 (mul (sub returnPct (ofNat 1)) (ofNat 10000))
  decide (refAmount < finalAmount) && !returnTooHigh F refAmount finalAmount &&
    decide (combinedFeeBps + marginAboveFeesBps ≤ marginBps) &&
    decide (minNetProfit ≤ threeHopNet (finalAmount - refAmount))

/-- The best route over a first pool, a second and the best third. -/
def triangleRoute (adj : Adjacency) (borrowAmounts : List Nat) (refAmount : Nat)
    (anchor tokenX : Pubkey) (pool1 : DexPool) (amountX : Nat) (second : Pubkey × DexPool) :
    Option (RouteParams F) :=
  if second.1 = anchor ∨ second.1 = tokenX then none
  else do
    let hop3Neighbors ← HashMap.get adj second.1
    let amountY := quoteFrom powf now second.2 tokenX amountX
    if poolsTo hop3Neighbors anchor = [] ∨ amountY = 0 then none
    else do
      let (pool3, finalAmount) ← bestPool powf now (poolsTo hop3Neighbors anchor) second.1 amountY
      if worthwhile F refAmount finalAmount pool1 second.2 pool3 then
        bestRoute (borrowAmounts.filterMap
          (threeHopRoute powf now pool1 second.2 pool3 anchor tokenX second.1))
      else none

/-- The routes from an anchor through one of its neighbours. -/
def routesThrough (adj : Adjacency) (borrowAmounts : List Nat) (refAmount : Nat)
    (anchor : Pubkey) (hop1Neighbors : List (Pubkey × DexPool)) (tokenX : Pubkey) :
    List (RouteParams F) :=
  match bestPool powf now (poolsTo hop1Neighbors tokenX) anchor refAmount with
  | none => []
  | some (pool1, amountX) =>
      match HashMap.get adj tokenX with
      | none => []
      | some hop2Neighbors =>
          hop2Neighbors.filterMap
            (triangleRoute powf now adj borrowAmounts refAmount anchor tokenX pool1 amountX)

def routesFrom (adj : Adjacency) (borrowAmounts : List Nat) (refAmount : Nat) (anchor : Pubkey) :
    List (RouteParams F) :=
  match HashMap.get adj anchor with
  | none => []
  | some hop1Neighbors =>
      let uniqueX := ((hop1Neighbors.map Prod.fst).filter (fun token =>
        decide (token ≠ anchor ∧ token ∉ anchorTokens))).dedup
      if maxNeighbors < uniqueX.length then []
      else uniqueX.flatMap (routesThrough powf now adj borrowAmounts refAmount anchor hop1Neighbors)

def scanCrossDex3hop (cache : PoolStateCache) (borrowAmounts : List Nat) :
    List (RouteParams F) :=
  let adj := adjacency cache
  let refAmount := borrowAmounts.head?.getD defaultReferenceAmount
  (rankRoutes cache (anchorTokens.flatMap (routesFrom powf now adj borrowAmounts refAmount))).take
    maxThreeHopRoutes

theorem mem_adjacency (cache : PoolStateCache) (token other : Pubkey) (pool : DexPool)
    (member : (other, pool) ∈ (HashMap.get (adjacency cache) token).getD []) :
    pool ∈ HashMap.values cache.inner ∧
      ((pool.tokenA = token ∧ pool.tokenB = other) ∨ (pool.tokenB = token ∧ pool.tokenA = other)) := by
  rcases List.mem_flatMap.mp ((HashMap.mem_pushAll _ _ _).mp member) with ⟨held, kept, entry⟩
  have cached := (List.mem_filter.mp kept).1
  simp only [List.mem_cons, List.not_mem_nil, or_false, Prod.mk.injEq] at entry
  rcases entry with ⟨first, second, same⟩ | ⟨first, second, same⟩
  · subst same
    exact ⟨cached, Or.inl ⟨first.symm, second.symm⟩⟩
  · subst same
    exact ⟨cached, Or.inr ⟨first.symm, second.symm⟩⟩

/-- A neighbour in the index is a cached pool on the two tokens. -/
theorem trades_of_neighbor (cache : PoolStateCache) (token other : Pubkey) (pool : DexPool)
    (neighbors : List (Pubkey × DexPool))
    (found : HashMap.get (adjacency cache) token = some neighbors)
    (member : (other, pool) ∈ neighbors) :
    pool ∈ HashMap.values cache.inner ∧
      Trades pool (decide (pool.tokenA = token)) token other := by
  have listed : (other, pool) ∈ (HashMap.get (adjacency cache) token).getD [] := by
    rw [found]
    exact member
  rcases mem_adjacency cache token other pool listed with ⟨cached, pair⟩
  exact ⟨cached, trades_of_pair pool token other pair⟩

theorem mem_poolsTo (neighbors : List (Pubkey × DexPool)) (token : Pubkey) (pool : DexPool)
    (member : pool ∈ poolsTo neighbors token) : (token, pool) ∈ neighbors := by
  rcases List.mem_map.mp member with ⟨entry, kept, same⟩
  rcases List.mem_filter.mp kept with ⟨listed, own⟩
  rw [← same, ← of_decide_eq_true own]
  exact listed

theorem mem_of_lastHighest (entries : List (DexPool × Nat)) (best : DexPool × Nat)
    (found : lastHighest entries = some best) : best ∈ entries := by
  cases entries with
  | nil => cases found
  | cons head tail =>
      rw [← Option.some.inj found]
      apply mem_of_foldl_choice
      intro held next
      split
      · exact Or.inl rfl
      · exact Or.inr rfl

theorem mem_of_bestPool (pools : List DexPool) (token : Pubkey) (amountIn amountOut : Nat)
    (pool : DexPool) (best : bestPool powf now pools token amountIn = some (pool, amountOut)) :
    pool ∈ pools := by
  have kept := mem_of_lastHighest _ _ best
  rcases List.mem_map.mp (List.mem_filter.mp kept).1 with ⟨other, listed, same⟩
  cases same
  exact listed

end Scan

section Soundness

variable (powf : Double → Double → Double) (now : Instant) (cache : PoolStateCache)
  (keyed : ∀ address pool, cache.get address = some pool → pool.poolAddress = address)

theorem le_of_returnCapped (borrowAmount finalAmount : Nat)
    (capped : returnTooHigh Double borrowAmount finalAmount = false) :
    100 * finalAmount ≤ 106 * borrowAmount := by
  rcases Bool.or_eq_false_iff.mp capped with ⟨zero, ratio⟩
  exact le_of_ratio_capped borrowAmount finalAmount
    (Nat.pos_of_ne_zero (of_decide_eq_false zero)) ratio

include keyed in
theorem profitable_threeHopRoute (pool1 pool2 pool3 : DexPool) (anchor tokenX tokenY : Pubkey)
    (borrowAmount : Nat) (route : RouteParams Double) (lent : anchor ∈ anchorTokens)
    (first : pool1 ∈ HashMap.values cache.inner ∧
      Trades pool1 (decide (pool1.tokenA = anchor)) anchor tokenX)
    (second : pool2 ∈ HashMap.values cache.inner ∧
      Trades pool2 (decide (pool2.tokenA = tokenX)) tokenX tokenY)
    (third : pool3 ∈ HashMap.values cache.inner ∧
      Trades pool3 (decide (pool3.tokenA = tokenY)) tokenY anchor)
    (built : threeHopRoute powf now pool1 pool2 pool3 anchor tokenX tokenY borrowAmount =
      some route) :
    Profitable powf now cache (txFeePerHop * 3) route := by
  simp only [threeHopRoute, Option.ite_none_left_eq_some] at built
  rcases built with ⟨-, -, gains, capped, positive, -, same⟩
  have gains := not_le.mp (fun less => gains (Or.inr less))
  have capped := le_of_returnCapped _ _ (Bool.eq_false_iff.mpr capped)
  have positive := not_le.mp positive
  have same := (Option.some.inj same).symm
  generalize quote1 : quoteFrom powf now pool1 anchor borrowAmount = a1 at *
  generalize quote2 : quoteFrom powf now pool2 tokenX a1 = a2 at *
  generalize quote3 : quoteFrom powf now pool3 tokenY a2 = a3 at *
  have borrowed : route.borrowAmount = borrowAmount := by rw [same]
  have nets : route.netProfit = threeHopNet (a3 - borrowAmount) := by rw [same]
  have hops : route.hops = [hopOf pool1 anchor tokenX a1 (deepImpact pool1 borrowAmount),
      hopOf pool2 tokenX tokenY a2 (deepImpact pool2 a1),
      hopOf pool3 tokenY anchor a3 (deepImpact pool3 a2)] := by rw [same]
  rw [← borrowed] at quote1 gains capped nets
  exact profitable_threeHop powf now cache keyed pool1 pool2 pool3 _ _ _ anchor tokenX tokenY a1 a2
    a3 _ _ _ route lent first.1 second.1 third.1 first.2 second.2 third.2 quote1.symm quote2.symm
    quote3.symm hops gains capped nets (by rw [nets, borrowed]; exact positive)

include keyed in
theorem profitable_of_scan3hop (borrowAmounts : List Nat) (route : RouteParams Double)
    (scanned : route ∈ scanCrossDex3hop powf now cache borrowAmounts) :
    Profitable powf now cache (txFeePerHop * 3) route := by
  rcases (mem_rankRoutes cache _ route).mp (List.mem_of_mem_take scanned) with
    ⟨found, member, -, same⟩
  apply profitable_relabel powf now cache _ found route (by rw [same])
  rcases List.mem_flatMap.mp member with ⟨anchor, lent, member⟩
  rw [routesFrom] at member
  split at member
  · cases member
  · next hop1Neighbors at1 =>
      dsimp only at member
      split at member
      · cases member
      · rcases List.mem_flatMap.mp member with ⟨tokenX, -, member⟩
        rw [routesThrough] at member
        split at member
        · cases member
        · next pool1 amountX best1 =>
            split at member
            · cases member
            · next hop2Neighbors at2 =>
                rcases List.mem_filterMap.mp member with ⟨⟨tokenY, pool2⟩, listed, built⟩
                rw [triangleRoute, Option.ite_none_left_eq_some] at built
                rcases Option.bind_eq_some_iff.mp built.2 with ⟨hop3Neighbors, at3, built⟩
                dsimp only at built at3
                rw [Option.ite_none_left_eq_some] at built
                rcases Option.bind_eq_some_iff.mp built.2 with ⟨⟨pool3, finalAmount⟩, best3, built⟩
                rw [Option.ite_none_right_eq_some] at built
                rcases List.mem_filterMap.mp (mem_of_bestRoute _ _ built.2) with
                  ⟨borrowAmount, -, made⟩
                exact profitable_threeHopRoute powf now cache keyed pool1 pool2 pool3 anchor tokenX
                  tokenY borrowAmount found lent
                  (trades_of_neighbor cache anchor tokenX pool1 hop1Neighbors at1
                    (mem_poolsTo _ _ _ (mem_of_bestPool powf now _ _ _ _ _ best1)))
                  (trades_of_neighbor cache tokenX tokenY pool2 hop2Neighbors at2 listed)
                  (trades_of_neighbor cache tokenY anchor pool3 hop3Neighbors at3
                    (mem_poolsTo _ _ _ (mem_of_bestPool powf now _ _ _ _ _ best3))) made

end Soundness

end Helios.ThreeHop
