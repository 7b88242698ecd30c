import Helios.ThreeHop

/-! Three-leg cycles through fixed combinations of venues, each leg on the deepest pool
of its venue and pair. -/

namespace Helios.CyclicArb

open Machine FloatArith CrossDex ScannedRoutes ThreeHop

def maxBorrowLamports : Nat := 2000000000
def minMarginBps : Nat := 30

def venueCombos : List (DexType × DexType × DexType) :=
  [(.raydiumAmmV4, .orcaWhirlpool, .meteoraDlmm), (.raydiumAmmV4, .meteoraDlmm, .orcaWhirlpool),
    (.orcaWhirlpool, .raydiumAmmV4, .meteoraDlmm), (.orcaWhirlpool, .meteoraDlmm, .raydiumAmmV4),
    (.meteoraDlmm, .raydiumAmmV4, .orcaWhirlpool), (.pumpSwap, .raydiumAmmV4, .orcaWhirlpool),
    (.pumpSwap, .meteoraDlmm, .raydiumAmmV4), (.fluxbeam, .meteoraDlmm, .orcaWhirlpool),
    (.saber, .orcaWhirlpool, .raydiumAmmV4), (.raydiumCpmm, .raydiumAmmV4, .orcaWhirlpool)]

/-! The indexes of one scan. -/

abbrev PairIndexByDex := HashMap (DexType × Pubkey × Pubkey) (List DexPool)

def dexPools (cache : PoolStateCache) : HashMap DexType (List DexPool) :=
  HashMap.pushAll HashMap.empty (((HashMap.values cache.inner).filter tradable).map
    (fun pool => (pool.dexType, pool)))

def dexPairIndex (pools : HashMap DexType (List DexPool)) : PairIndexByDex :=
  HashMap.pushAll HashMap.empty (pools.entries.flatMap (fun entry =>
    entry.2.map (fun pool => ((entry.1, canonicalPair pool.tokenA pool.tokenB), pool))))

/-- The tokens paired with a token on a venue. -/
def dexTokenPairs (pools : HashMap DexType (List DexPool)) (dex : DexType) :
    Option (HashMap Pubkey (List Pubkey)) :=
  (HashMap.get pools dex).map (fun listed =>
    HashMap.pushAll HashMap.empty (listed.flatMap
      (fun pool => [(pool.tokenA, pool.tokenB), (pool.tokenB, pool.tokenA)])))

def bestPoolForPair (index : PairIndexByDex) (dex : DexType) (tokenIn tokenOut : Pubkey) :
    Option DexPool := do
  let pools ← HashMap.get index (dex, canonicalPair tokenIn tokenOut)
  let best ← lastHighest (pools.map
    (fun pool => (pool, saturatingAdd64 pool.reserveA pool.reserveB)))
  return best.1

section Quotes

variable {F : Type} [FloatArith F] (powf : F → F → F) (now : Instant)

/-- 10 %. -/
def maxLegImpactPct : F := ofNat 10

def legDirection (pool : DexPool) (tokenIn : Pubkey) : Option Bool :=
  if pool.tokenA = tokenIn then some true
  else if pool.tokenB = tokenIn then some false
  else none

/-- `quote_hop`: the amount out and the impact. -/
def quoteLeg (pool : DexPool) (tokenIn : Pubkey) (amountIn : Nat) : Option (Nat × F) := do
  let aToB ← legDirection pool tokenIn
  let amountOut := pool.quote powf now aToB amountIn
  if amountOut = 0 then none
  else if reserveIn pool aToB < saturatingMul64 amountIn 2 then none
  else some (amountOut, priceImpact pool aToB amountIn)

/-- What the three legs come to, if the profit passes. -/
def legsRoute (pool1 pool2 pool3 : DexPool) (anchor tokenB tokenC : Pubkey)
    (borrowAmount : Nat) (leg1 leg2 leg3 : Nat × F) : Option (RouteParams F) :=
  let grossProfit := leg3.1 - borrowAmount
  let totalFeeBps := dexFeeBps pool1.dexType + dexFeeBps pool2.dexType + dexFeeBps pool3.dexType
  let profitBps := toU64 (mul (div (ofNat grossProfit) (ofNat borrowAmount)) (ofNat 10000 : F))
  let maxImpact := FloatArith.max (FloatArith.max leg1.2 leg2.2) leg3.2
  if leg3.1 ≤ borrowAmount then none
  else if lt (mul (ofNat borrowAmount) (maxReturnMultiplier : F)) (ofNat leg3.1) then none
  else if threeHopNet grossProfit ≤ 0 then none
  else if profitBps < totalFeeBps + minMarginBps then none
  else
    some {
      hops := [hopOf pool1 anchor tokenB leg1.1 leg1.2, hopOf pool2 tokenB tokenC leg2.1 leg2.2,
        hopOf pool3 tokenC anchor leg3.1 leg3.2]
      borrowAmount := borrowAmount
      grossProfit := grossProfit
      netProfit := threeHopNet grossProfit
      riskFactor := FloatArith.min (div maxImpact (ofNat 100)) (ofRat (95 / 100))
      strategy := "cyclic_3leg"
      tier := 0 }

def quote3legCycle (pool1 pool2 pool3 : DexPool) (anchor tokenB tokenC : Pubkey)
    (borrowAmount : Nat) : Option (RouteParams F) := do
  let leg1 ← quoteLeg powf now pool1 anchor borrowAmount
  if lt maxLegImpactPct leg1.2 then none
  else do
    let leg2 ← quoteLeg powf now pool2 tokenB leg1.1
    if lt maxLegImpactPct leg2.2 then none
    else do
      let leg3 ← quoteLeg powf now pool3 tokenC leg2.1
      if lt maxLegImpactPct leg3.2 then none
      else legsRoute pool1 pool2 pool3 anchor tokenB tokenC borrowAmount leg1 leg2 leg3

/-- The best route along one cycle of tokens. -/
def cycleRoute (index : PairIndexByDex) (borrowAmounts : List Nat)
    (combo : DexType × DexType × DexType) (anchor tokenB tokenC : Pubkey) :
    Option (RouteParams F) := do
  let pool1 ← bestPoolForPair index combo.1 anchor tokenB
  let pool2 ← bestPoolForPair index combo.2.1 tokenB tokenC
  let pool3 ← bestPoolForPair index combo.2.2 tokenC anchor
  bestRoute (borrowAmounts.filterMap (fun borrowAmount =>
    quote3legCycle powf now pool1 pool2 pool3 anchor tokenB tokenC
      (min borrowAmount maxBorrowLamports)))

/-- The cycles from an anchor over the venues' tokens. -/
def anchorCycles (index : PairIndexByDex) (borrowAmounts : List Nat)
    (combo : DexType × DexType × DexType) (adj1 adj2 adj3 : HashMap Pubkey (List Pubkey))
    (anchor : Pubkey) : List (RouteParams F) :=
  ((HashMap.get adj1 anchor).getD []).dedup.flatMap (fun tokenB =>
    if tokenB ∈ anchorTokens ∧ tokenB ≠ anchor then []
    else
      ((HashMap.get adj2 tokenB).getD []).dedup.filterMap (fun tokenC =>
        if tokenC = anchor ∨ tokenC = tokenB then none
        else if anchor ∉ (HashMap.get adj3 tokenC).getD [] then none
        else cycleRoute powf now index borrowAmounts combo anchor tokenB tokenC))

def comboCycles (pools : HashMap DexType (List DexPool)) (borrowAmounts : List Nat)
    (combo : DexType × DexType × DexType) : List (RouteParams F) :=
  match dexTokenPairs pools combo.1, dexTokenPairs pools combo.2.1, dexTokenPairs pools combo.2.2 with
  | some adj1, some adj2, some adj3 =>
      anchorTokens.flatMap
        (anchorCycles powf now (dexPairIndex pools) borrowAmounts combo adj1 adj2 adj3)
  | _, _, _ => []

def scanCyclicOpportunities (cache : PoolStateCache) (borrowAmounts : List Nat) :
    List (RouteParams F) :=
  (venueCombos.flatMap (comboCycles powf now (dexPools cache) borrowAmounts)).mergeSort
    (fun first second => decide (second.netProfit ≤ first.netProfit))

theorem mem_dexPairIndex (cache : PoolStateCache) (dex : DexType) (pair : Pubkey × Pubkey)
    (pool : DexPool)
    (member : pool ∈ (HashMap.get (dexPairIndex (dexPools cache)) (dex, pair)).getD []) :
    pool ∈ HashMap.values cache.inner ∧ canonicalPair pool.tokenA pool.tokenB = pair := by
  rcases List.mem_flatMap.mp ((HashMap.mem_pushAll _ _ _).mp member) with ⟨entry, grouped, listed⟩
  rcases List.mem_map.mp listed with ⟨held, inside, same⟩
  cases same
  have found : HashMap.get (dexPools cache) entry.1 = some entry.2 :=
    AList.mem_lookup_iff.mpr grouped
  have pushed : pool ∈ (HashMap.get (dexPools cache) entry.1).getD [] := by
    rw [found]
    exact inside
  rcases List.mem_map.mp ((HashMap.mem_pushAll _ _ _).mp pushed) with ⟨other, kept, own⟩
  have own : other = pool := congrArg Prod.snd own
  rw [← own]
  exact ⟨(List.mem_filter.mp kept).1, rfl⟩

theorem bestPoolForPair_spec (cache : PoolStateCache) (dex : DexType) (tokenIn tokenOut : Pubkey)
    (pool : DexPool)
    (best : bestPoolForPair (dexPairIndex (dexPools cache)) dex tokenIn tokenOut = some pool) :
    pool ∈ HashMap.values cache.inner ∧ s(pool.tokenA, pool.tokenB) = s(tokenIn, tokenOut) := by
  rcases Option.bind_eq_some_iff.mp best with ⟨pools, found, best⟩
  rcases Option.bind_eq_some_iff.mp best with ⟨highest, chosen, same⟩
  cases same
  rcases List.mem_map.mp (mem_of_lastHighest _ _ chosen) with ⟨held, listed, same⟩
  cases same
  have pushed : held ∈ (HashMap.get (dexPairIndex (dexPools cache))
      (dex, canonicalPair tokenIn tokenOut)).getD [] := by
    rw [found]
    exact listed
  rcases mem_dexPairIndex cache dex _ held pushed with ⟨cached, pair⟩
  exact ⟨cached, (PairIndex.canonicalPair_eq_iff _ _ _ _).mp pair⟩

/-- A leg's quote is its pool's own, in the direction of its token. -/
theorem quoteLeg_spec (pool : DexPool) (tokenIn tokenOut : Pubkey) (amountIn : Nat)
    (leg : Nat × F) (pair : s(pool.tokenA, pool.tokenB) = s(tokenIn, tokenOut))
    (quoted : quoteLeg powf now pool tokenIn amountIn = some leg) :
    ∃ aToB, Trades pool aToB tokenIn tokenOut ∧ leg.1 = pool.quote powf now aToB amountIn := by
  rcases Option.bind_eq_some_iff.mp quoted with ⟨aToB, direction, quoted⟩
  simp only [Option.ite_none_left_eq_some] at quoted
  rcases quoted with ⟨-, -, same⟩
  refine ⟨aToB, ?_, by rw [← Option.some.inj same]⟩
  rw [legDirection] at direction
  split at direction
  · next first =>
      cases direction
      rw [first] at pair
      exact ⟨first.symm, (Sym2.congr_right.mp pair).symm⟩
  · split at direction
    · next second =>
        cases direction
        rw [second, Sym2.eq_swap] at pair
        exact ⟨second.symm, (Sym2.congr_right.mp pair).symm⟩
    · cases direction

end Quotes

section Soundness

variable (powf : Double → Double → Double) (now : Instant) (cache : PoolStateCache)
  (keyed : ∀ address pool, cache.get address = some pool → pool.poolAddress = address)

include keyed in
theorem profitable_cycleRoute (borrowAmounts : List Nat) (combo : DexType × DexType × DexType)
    (anchor tokenB tokenC : Pubkey) (lent : anchor ∈ anchorTokens) (route : RouteParams Double)
    (found : cycleRoute powf now (dexPairIndex (dexPools cache)) borrowAmounts combo anchor tokenB
      tokenC = some route) :
    Profitable powf now cache (txFeePerHop * 3) route := by
  rcases Option.bind_eq_some_iff.mp found with ⟨pool1, best1, found⟩
  rcases Option.bind_eq_some_iff.mp found with ⟨pool2, best2, found⟩
  rcases Option.bind_eq_some_iff.mp found with ⟨pool3, best3, found⟩
  rcases List.mem_filterMap.mp (mem_of_bestRoute _ _ found) with ⟨offered, -, built⟩
  rcases Option.bind_eq_some_iff.mp built with ⟨leg1, quoted1, built⟩
  rw [Option.ite_none_left_eq_some] at built
  rcases Option.bind_eq_some_iff.mp built.2 with ⟨leg2, quoted2, built⟩
  rw [Option.ite_none_left_eq_some] at built
  rcases Option.bind_eq_some_iff.mp built.2 with ⟨leg3, quoted3, built⟩
  rw [Option.ite_none_left_eq_some] at built
  have made := built.2
  simp only [legsRoute, Option.ite_none_left_eq_some] at made
  rcases made with ⟨gains, capped, positive, -, same⟩
  have same := (Option.some.inj same).symm
  rcases bestPoolForPair_spec cache _ _ _ pool1 best1 with ⟨in1, pair1⟩
  rcases bestPoolForPair_spec cache _ _ _ pool2 best2 with ⟨in2, pair2⟩
  rcases bestPoolForPair_spec cache _ _ _ pool3 best3 with ⟨in3, pair3⟩
  rcases quoteLeg_spec powf now pool1 anchor tokenB _ leg1 pair1 quoted1 with ⟨aToB1, trades1, out1⟩
  rcases quoteLeg_spec powf now pool2 tokenB tokenC _ leg2 pair2 quoted2 with ⟨aToB2, trades2, out2⟩
  rcases quoteLeg_spec powf now pool3 tokenC anchor _ leg3 pair3 quoted3 with ⟨aToB3, trades3, out3⟩
  have capped := le_of_capped _ _ (Bool.eq_false_iff.mpr capped)
  have borrowed : route.borrowAmount = min offered maxBorrowLamports := by rw [same]
  have nets : route.netProfit = threeHopNet (leg3.1 - min offered maxBorrowLamports) := by rw [same]
  have hops : route.hops = [hopOf pool1 anchor tokenB leg1.1 leg1.2,
      hopOf pool2 tokenB tokenC leg2.1 leg2.2, hopOf pool3 tokenC anchor leg3.1 leg3.2] := by
    rw [same]
  rw [← nets] at positive
  rw [← borrowed] at out1 gains capped nets
  exact profitable_threeHop powf now cache keyed pool1 pool2 pool3 aToB1 aToB2 aToB3 anchor tokenB
    tokenC leg1.1 leg2.1 leg3.1 leg1.2 leg2.2 leg3.2 route lent in1 in2 in3 trades1 trades2 trades3
    out1 out2 out3 hops (not_le.mp gains) capped nets (not_le.mp positive)

include keyed in
theorem profitable_of_scanCyclic (borrowAmounts : List Nat) (route : RouteParams Double)
    (scanned : route ∈ scanCyclicOpportunities powf now cache borrowAmounts) :
    Profitable powf now cache (txFeePerHop * 3) route := by
  rcases List.mem_flatMap.mp (List.mem_mergeSort.mp scanned) with ⟨combo, -, member⟩
  rw [comboCycles] at member
  split at member
  · rcases List.mem_flatMap.mp member with ⟨anchor, lent, member⟩
    rcases List.mem_flatMap.mp member with ⟨tokenB, -, member⟩
    split at member
    · cases member
    · rcases List.mem_filterMap.mp member with ⟨tokenC, -, found⟩
      simp only [Option.ite_none_left_eq_some] at found
      exact profitable_cycleRoute powf now cache keyed borrowAmounts combo anchor tokenB tokenC lent
        route found.2.2
  · cases member

end Soundness

end Helios.CyclicArb
