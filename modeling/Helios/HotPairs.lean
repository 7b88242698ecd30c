import Helios.HotRoutes
import Helios.OpportunityScanner

/-! The scan of recorded pool pairs, and what both scans of recorded routes return. -/

namespace Helios.HotPairs

open Machine FloatArith CrossDex Runs PairIndex HotRoutes

section TwoHop

variable {F : Type} [FloatArith F] (powf : F → F → F) (now : Instant)

/-- There on one pool and back on the other, within every check of the builder. -/
structure RoundTrip (first : DexPool) (firstAToB : Bool) (second : DexPool) (secondAToB : Bool)
    (borrowAmount : Nat) : Prop where
  bought : first.quote powf now firstAToB borrowAmount ≠ 0
  firstImpact : lt maxImpactPct (priceImpact first firstAToB borrowAmount : F) = false
  sold : second.quote powf now secondAToB (first.quote powf now firstAToB borrowAmount) ≠ 0
  secondImpact : lt maxImpactPct (priceImpact second secondAToB
    (first.quote powf now firstAToB borrowAmount) : F) = false
  gains : borrowAmount < second.quote powf now secondAToB
    (first.quote powf now firstAToB borrowAmount)
  capped : lt (mul (ofNat borrowAmount) (maxReturnMultiplier : F)) (ofNat
    (second.quote powf now secondAToB (first.quote powf now firstAToB borrowAmount))) = false
  nets : 0 < netProfit (second.quote powf now secondAToB
    (first.quote powf now firstAToB borrowAmount) - borrowAmount)

theorem twoHopRoute_iff (first : DexPool) (firstAToB : Bool) (second : DexPool)
    (secondAToB : Bool) (tokenIn tokenMid : Pubkey) (borrowAmount : Nat) :
    (∃ route, twoHopRoute powf now first firstAToB second secondAToB tokenIn tokenMid
        borrowAmount = some route) ↔
      RoundTrip powf now first firstAToB second secondAToB borrowAmount := by
  simp only [twoHopRoute, Option.ite_none_left_eq_some]
  constructor
  · rintro ⟨route, firstOk, secondOk, gains, capped, nets, -⟩
    rw [not_or] at firstOk secondOk
    exact {
      bought := firstOk.1
      firstImpact := Bool.eq_false_iff.mpr firstOk.2
      sold := secondOk.1
      secondImpact := Bool.eq_false_iff.mpr secondOk.2
      gains := not_le.mp gains
      capped := Bool.eq_false_iff.mpr capped
      nets := not_le.mp nets }
  · intro trip
    refine ⟨_, ?_, ?_, not_le.mpr trip.gains, Bool.eq_false_iff.mp trip.capped,
      not_le.mpr trip.nets, rfl⟩
    · exact not_or.mpr ⟨trip.bought, Bool.eq_false_iff.mp trip.firstImpact⟩
    · exact not_or.mpr ⟨trip.sold, Bool.eq_false_iff.mp trip.secondImpact⟩

theorem bestRoute_exists {F : Type} (routes : List (RouteParams F)) (route : RouteParams F)
    (member : route ∈ routes) : ∃ best, bestRoute routes = some best := by
  have held : ∀ (rest : List (RouteParams F)) (start : RouteParams F),
      ∃ best, rest.foldl (fun best route =>
        if (best.map (fun held => decide (held.netProfit < route.netProfit))).getD true
        then some route else best) (some start) = some best := by
    intro rest
    induction rest with
    | nil => exact fun start => ⟨start, rfl⟩
    | cons head tail ih =>
        intro start
        rw [List.foldl_cons]
        split
        · exact ih head
        · exact ih start
  cases routes with
  | nil => cases member
  | cons head tail => exact held tail head

/-- What a two-hop route says of its pools and tokens. -/
structure TripOf (first second : DexPool) (tokenIn tokenMid : Pubkey) (route : RouteParams F) :
    Prop where
  hops : ∃ firstHop secondHop : Hop F, route.hops = [firstHop, secondHop] ∧
    firstHop.pool = first.poolAddress ∧ secondHop.pool = second.poolAddress ∧
    firstHop.tokenIn = tokenIn ∧ firstHop.tokenOut = tokenMid ∧
    secondHop.tokenIn = tokenMid ∧ secondHop.tokenOut = tokenIn

variable {powf now}

theorem tripOf_twoHopRoute (first : DexPool) (firstAToB : Bool) (second : DexPool)
    (secondAToB : Bool) (tokenIn tokenMid : Pubkey) (borrowAmount : Nat) (route : RouteParams F)
    (built : twoHopRoute powf now first firstAToB second secondAToB tokenIn tokenMid borrowAmount =
      some route) : TripOf first second tokenIn tokenMid route := by
  rcases (twoHopRoute_spec powf now first firstAToB second secondAToB tokenIn tokenMid borrowAmount
    route built).hops with ⟨firstHop, secondHop, hops, firstPool, -, firstIn, firstOut, -,
      secondPool, -, secondIn, secondOut, -⟩
  exact ⟨firstHop, secondHop, hops, firstPool, secondPool, firstIn, firstOut, secondIn, secondOut⟩

variable {cache : PoolStateCache}

omit [FloatArith F] in
theorem through_of_trip (first second : DexPool) (tokenIn tokenMid : Pubkey)
    (route : RouteParams F) (trip : TripOf first second tokenIn tokenMid route)
    (firstCached : cache.get first.poolAddress = some first)
    (secondCached : cache.get second.poolAddress = some second) :
    Through cache route.hops [first, second] := by
  rcases trip.hops with ⟨firstHop, secondHop, hops, firstPool, secondPool, -⟩
  rw [hops, through_cons, through_cons, firstPool, secondPool]
  exact ⟨firstCached, secondCached, rfl⟩

omit [FloatArith F] in
theorem closed_of_trip (first second : DexPool) (tokenIn tokenMid : Pubkey)
    (route : RouteParams F) (trip : TripOf first second tokenIn tokenMid route)
    (firstCached : cache.get first.poolAddress = some first)
    (secondCached : cache.get second.poolAddress = some second)
    (firstTrades : mints first = s(tokenIn, tokenMid))
    (secondTrades : mints second = s(tokenIn, tokenMid)) : ClosedRoute cache route := by
  rcases trip.hops with ⟨firstHop, secondHop, hops, firstPool, secondPool, firstIn, firstOut,
    secondIn, secondOut⟩
  constructor
  · refine ⟨tokenIn, ?_⟩
    rw [hops]
    exact ⟨firstIn, secondIn.trans firstOut.symm, secondOut⟩
  · intro hop member
    rw [hops] at member
    rcases List.mem_cons.mp member with same | member
    · refine ⟨first, ?_, ?_⟩
      · rw [same, firstPool]
        exact firstCached
      · rw [same, firstIn, firstOut]
        exact firstTrades
    · refine ⟨second, ?_, ?_⟩
      · rw [List.mem_singleton.mp member, secondPool]
        exact secondCached
      · rw [List.mem_singleton.mp member, secondIn, secondOut, secondTrades]
        exact Sym2.eq_swap

end TwoHop

section Hot

variable {F : Type} [FloatArith F] (powf : F → F → F) (now : Instant) (cache : PoolStateCache)

/-- Both recorded pools are cached with reserves and quote the reference amount, and the pair is
one that is traded. -/
structure Rated (borrowAmounts : List Nat) (record : HotRoute) (rateA rateB : PoolRate F) :
    Prop where
  first : ∃ pool, cache.get record.poolA = some pool ∧ hasReserves pool = true ∧
    poolRate powf now (pairKey record.tokenA record.tokenB).1 borrowAmounts pool = some rateA
  second : ∃ pool, cache.get record.poolB = some pool ∧ hasReserves pool = true ∧
    poolRate powf now (pairKey record.tokenA record.tokenB).1 borrowAmounts pool = some rateB
  allowed : pairAllowed (pairKey record.tokenA record.tokenB).1
    (pairKey record.tokenA record.tokenB).2 = true

/-- The rates lie apart by the fees of both pools and half the margin. -/
structure Diverges (rateA rateB high low : PoolRate F) : Prop where
  order : highLow rateA rateB = some (high, low)
  margin : dexFeeBps high.pool.dexType + dexFeeBps low.pool.dexType + minMarginAboveFeesBps / 2 ≤
    hotDivergence rateA rateB

/-- A trip from the first token of the pair, or one from the second, each from a token that can be
borrowed. The first asks for a reserve of ten loans besides. -/
def PaysBack (key : Pubkey × Pubkey) (high low : PoolRate F) (borrowAmount : Nat) : Prop :=
  (isAnchor key.1 = true ∧
    saturatingMul64 borrowAmount 10 ≤ reserveIn high.pool high.canonicalOrder ∧
    RoundTrip powf now high.pool high.canonicalOrder low.pool (!low.canonicalOrder)
      borrowAmount) ∨
  (isAnchor key.2 = true ∧
    RoundTrip powf now low.pool (!low.canonicalOrder) high.pool high.canonicalOrder borrowAmount)

def HotPays (borrowAmounts : List Nat) (record : HotRoute) : Prop :=
  ∃ rateA rateB high low, Rated powf now cache borrowAmounts record rateA rateB ∧
    Diverges rateA rateB high low ∧ Kept [high.pool, low.pool] ∧
    ∃ borrowAmount ∈ borrowAmounts,
      PaysBack powf now (pairKey record.tokenA record.tokenB) high low borrowAmount

/-- Both recorded pools trade the recorded pair. -/
def HotConsistent (record : HotRoute) : Prop :=
  ∀ address ∈ [record.poolA, record.poolB], ∃ pool, cache.get address = some pool ∧
    mints pool = s(record.tokenA, record.tokenB)

variable {powf now}

/-- A route from a pair of rated pools: there and back from one of its two tokens. -/
def TripsBetween (key : Pubkey × Pubkey) (high low : PoolRate F) (route : RouteParams F) : Prop :=
  TripOf high.pool low.pool key.1 key.2 route ∨ TripOf low.pool high.pool key.2 key.1 route

omit [FloatArith F] in
theorem mem_best (lent : Bool) (routes : List (RouteParams F)) (route : RouteParams F)
    (member : route ∈ (if lent then
      (bestRoute (routes.map (fun route => { route with strategy := "hot-route" }))).toList
      else [])) :
    lent = true ∧ ∃ plain ∈ routes, { plain with strategy := "hot-route" } = route := by
  split at member
  · next borrowed =>
      exact ⟨borrowed, List.mem_map.mp (mem_of_bestRoute _ _ (Option.mem_toList.mp member))⟩
  · cases member

omit [FloatArith F] in
theorem best_exists (lent : Bool) (borrowed : lent = true) (routes : List (RouteParams F))
    (plain : RouteParams F) (member : plain ∈ routes) :
    ∃ route, route ∈ (if lent then
      (bestRoute (routes.map (fun route => { route with strategy := "hot-route" }))).toList
      else []) := by
  rw [if_pos borrowed]
  rcases bestRoute_exists (routes.map (fun route => { route with strategy := "hot-route" }))
    { plain with strategy := "hot-route" } (List.mem_map_of_mem member) with ⟨best, found⟩
  exact ⟨best, Option.mem_toList.mpr found⟩

theorem paysBack_of_mem (borrowAmounts : List Nat) (key : Pubkey × Pubkey)
    (rateA rateB : PoolRate F) (route : RouteParams F)
    (member : route ∈ ratedRoutes powf now borrowAmounts key rateA rateB) :
    ∃ high low, Diverges rateA rateB high low ∧ TripsBetween key high low route ∧
      ∃ borrowAmount ∈ borrowAmounts, PaysBack powf now key high low borrowAmount := by
  unfold ratedRoutes at member
  split at member
  · cases member
  · next high low order =>
      dsimp only at member
      split at member
      · cases member
      · next margin =>
          refine ⟨high, low, ⟨order, not_lt.mp margin⟩, ?_⟩
          rcases List.mem_append.mp member with forward | reverse
          · rcases mem_best _ _ route forward with ⟨lent, plain, listed, same⟩
            rcases List.mem_filterMap.mp listed with ⟨borrowAmount, tried, built⟩
            rw [buildCrossDexRoute, Option.ite_none_left_eq_some] at built
            rcases built with ⟨deep, built⟩
            refine ⟨Or.inl ?_, borrowAmount, tried, Or.inl ⟨lent, not_lt.mp deep, ?_⟩⟩
            · rw [← same]
              exact ⟨(tripOf_twoHopRoute _ _ _ _ _ _ _ plain built).hops⟩
            · exact (twoHopRoute_iff powf now _ _ _ _ _ _ _).mp ⟨plain, built⟩
          · rcases mem_best _ _ route reverse with ⟨lent, plain, listed, same⟩
            rcases List.mem_filterMap.mp listed with ⟨borrowAmount, tried, built⟩
            rw [buildCrossDexRouteReverse] at built
            refine ⟨Or.inr ?_, borrowAmount, tried, Or.inr ⟨lent, ?_⟩⟩
            · rw [← same]
              exact ⟨(tripOf_twoHopRoute _ _ _ _ _ _ _ plain built).hops⟩
            · exact (twoHopRoute_iff powf now _ _ _ _ _ _ _).mp ⟨plain, built⟩

theorem mem_of_paysBack (borrowAmounts : List Nat) (key : Pubkey × Pubkey)
    (rateA rateB high low : PoolRate F) (diverges : Diverges rateA rateB high low)
    (borrowAmount : Nat) (tried : borrowAmount ∈ borrowAmounts)
    (pays : PaysBack powf now key high low borrowAmount) :
    ∃ route, route ∈ ratedRoutes powf now borrowAmounts key rateA rateB := by
  rw [ratedRoutes, diverges.order]
  dsimp only
  rw [if_neg (not_lt.mpr diverges.margin)]
  rcases pays with ⟨lent, deep, trip⟩ | ⟨lent, trip⟩
  · rcases (twoHopRoute_iff powf now _ _ _ _ key.1 key.2 _).mpr trip with ⟨plain, built⟩
    have listed : plain ∈ forwardRoutes powf now high low key borrowAmounts
        (hotDivergence rateA rateB) := by
      refine List.mem_filterMap.mpr ⟨borrowAmount, tried, ?_⟩
      rw [buildCrossDexRoute, if_neg (not_lt.mpr deep)]
      exact built
    rcases best_exists _ lent _ plain listed with ⟨route, member⟩
    exact ⟨route, List.mem_append_left _ member⟩
  · rcases (twoHopRoute_iff powf now _ _ _ _ key.2 key.1 _).mpr trip with ⟨plain, built⟩
    have listed : plain ∈ reverseRoutes powf now high low key borrowAmounts
        (hotDivergence rateA rateB) :=
      List.mem_filterMap.mpr ⟨borrowAmount, tried, built⟩
    rcases best_exists _ lent _ plain listed with ⟨route, member⟩
    exact ⟨route, List.mem_append_right _ member⟩

variable {cache}

theorem mem_hotRoutes (borrowAmounts : List Nat) (record : HotRoute) (route : RouteParams F) :
    route ∈ hotRoutes powf now cache borrowAmounts record ↔
      ∃ rateA rateB, Rated powf now cache borrowAmounts record rateA rateB ∧
        route ∈ ratedRoutes powf now borrowAmounts (pairKey record.tokenA record.tokenB)
          rateA rateB := by
  rw [hotRoutes]
  constructor
  · intro member
    split at member
    · next poolA poolB cachedA cachedB =>
        split at member
        · next reserves =>
            rcases (Bool.and_eq_true _ _).mp reserves with ⟨reservesA, reservesB⟩
            dsimp only at member
            split at member
            · next allowed =>
                split at member
                · next rateA rateB foundA foundB =>
                    exact ⟨rateA, rateB, ⟨⟨poolA, cachedA, reservesA, foundA⟩,
                      ⟨poolB, cachedB, reservesB, foundB⟩, allowed⟩, member⟩
                · cases member
            · cases member
        · cases member
    · cases member
  · rintro ⟨rateA, rateB, ⟨⟨poolA, cachedA, reservesA, foundA⟩,
      ⟨poolB, cachedB, reservesB, foundB⟩, allowed⟩, member⟩
    rw [cachedA, cachedB]
    dsimp only
    rw [reservesA, reservesB, Bool.and_self, if_pos rfl, if_pos allowed, foundA, foundB]
    exact member

theorem kept_swap (first second : DexPool) : Kept [first, second] ↔ Kept [second, first] := by
  have perm : List.Perm [first, second] [second, first] := List.Perm.swap second first []
  rw [Kept, Kept]
  simp only [perm.mem_iff]

omit [FloatArith F] in
theorem tier_of_tripsBetween (key : Pubkey × Pubkey) (high low : PoolRate F)
    (route : RouteParams F) (trips : TripsBetween key high low route)
    (highCached : cache.get high.pool.poolAddress = some high.pool)
    (lowCached : cache.get low.pool.poolAddress = some low.pool) :
    routeTier cache route < 99 ↔ Kept [high.pool, low.pool] := by
  rcases trips with trip | trip
  · exact routeTier_kept_iff route _ (through_of_trip _ _ _ _ route trip highCached lowCached)
  · rw [kept_swap]
    exact routeTier_kept_iff route _ (through_of_trip _ _ _ _ route trip lowCached highCached)

variable (keyed : ∀ address pool, cache.get address = some pool → pool.poolAddress = address)

include keyed

/-- Either way round, the pools of such a pair are the recorded ones. -/
theorem recorded_of_diverges (borrowAmounts : List Nat) (record : HotRoute)
    (rateA rateB high low : PoolRate F)
    (rated : Rated powf now cache borrowAmounts record rateA rateB)
    (diverges : Diverges rateA rateB high low) :
    (cache.get high.pool.poolAddress = some high.pool ∧
      cache.get low.pool.poolAddress = some low.pool) ∧
    high.pool.poolAddress ∈ [record.poolA, record.poolB] ∧
    low.pool.poolAddress ∈ [record.poolA, record.poolB] := by
  rcases rated.first with ⟨poolA, cachedA, -, foundA⟩
  rcases rated.second with ⟨poolB, cachedB, -, foundB⟩
  have placedA := keyed record.poolA poolA cachedA
  have placedB := keyed record.poolB poolB cachedB
  rw [← (poolRate_spec powf now _ borrowAmounts poolA rateA foundA).1] at cachedA placedA
  rw [← (poolRate_spec powf now _ borrowAmounts poolB rateB foundB).1] at cachedB placedB
  rw [← placedA] at cachedA ⊢
  rw [← placedB] at cachedB ⊢
  have order := diverges.order
  rw [highLow] at order
  split at order
  · cases order
    exact ⟨⟨cachedA, cachedB⟩, List.mem_cons_self, List.mem_cons_of_mem _ List.mem_cons_self⟩
  · split at order
    · cases order
      exact ⟨⟨cachedB, cachedA⟩, List.mem_cons_of_mem _ List.mem_cons_self, List.mem_cons_self⟩
    · cases order

theorem hotPays_iff (borrowAmounts : List Nat) (record : HotRoute) :
    HotPays powf now cache borrowAmounts record ↔
      ∃ route ∈ hotRoutes powf now cache borrowAmounts record, routeTier cache route < 99 := by
  constructor
  · rintro ⟨rateA, rateB, high, low, rated, diverges, kept, borrowAmount, tried, pays⟩
    rcases mem_of_paysBack borrowAmounts _ rateA rateB high low diverges borrowAmount tried pays
      with ⟨route, member⟩
    refine ⟨route, (mem_hotRoutes borrowAmounts record route).mpr ⟨rateA, rateB, rated, member⟩, ?_⟩
    rcases paysBack_of_mem borrowAmounts _ rateA rateB route member with
      ⟨high', low', diverges', trips, -⟩
    have same := Option.some.inj (diverges'.order.symm.trans diverges.order)
    cases same
    have cached := (recorded_of_diverges keyed borrowAmounts record rateA rateB high low rated
      diverges).1
    exact (tier_of_tripsBetween _ high low route trips cached.1 cached.2).mpr kept
  · rintro ⟨route, member, tier⟩
    rcases (mem_hotRoutes borrowAmounts record route).mp member with ⟨rateA, rateB, rated, inPair⟩
    rcases paysBack_of_mem borrowAmounts _ rateA rateB route inPair with
      ⟨high, low, diverges, trips, borrowAmount, tried, pays⟩
    have cached := (recorded_of_diverges keyed borrowAmounts record rateA rateB high low rated
      diverges).1
    exact ⟨rateA, rateB, high, low, rated, diverges,
      (tier_of_tripsBetween _ high low route trips cached.1 cached.2).mp tier,
      borrowAmount, tried, pays⟩

theorem closed_of_hotConsistent (borrowAmounts : List Nat) (record : HotRoute)
    (consistent : HotConsistent cache record) (route : RouteParams F)
    (member : route ∈ hotRoutes powf now cache borrowAmounts record) : ClosedRoute cache route := by
  rcases (mem_hotRoutes borrowAmounts record route).mp member with ⟨rateA, rateB, rated, inPair⟩
  rcases paysBack_of_mem borrowAmounts _ rateA rateB route inPair with
    ⟨high, low, diverges, trips, -⟩
  rcases recorded_of_diverges keyed borrowAmounts record rateA rateB high low rated diverges with
    ⟨⟨highCached, lowCached⟩, highListed, lowListed⟩
  have trades : ∀ pool : DexPool, cache.get pool.poolAddress = some pool →
      pool.poolAddress ∈ [record.poolA, record.poolB] →
        mints pool = s((pairKey record.tokenA record.tokenB).1,
          (pairKey record.tokenA record.tokenB).2) := by
    intro pool cached listed
    rcases consistent pool.poolAddress listed with ⟨held, found, onPair⟩
    rw [cached] at found
    rw [Option.some.inj found, onPair, pairKey]
    split
    · rfl
    · exact Sym2.eq_swap
  rcases trips with trip | trip
  · exact closed_of_trip _ _ _ _ route trip highCached lowCached
      (trades high.pool highCached highListed) (trades low.pool lowCached lowListed)
  · apply closed_of_trip _ _ _ _ route trip lowCached highCached
    · rw [trades low.pool lowCached lowListed]
      exact Sym2.eq_swap
    · rw [trades high.pool highCached highListed]
      exact Sym2.eq_swap

end Hot

section Claim

variable {F : Type} [FloatArith F] (powf : F → F → F) (now : Instant)

/-- On every cache reached from an empty one, the scans return closed routes only, and none for an
inconsistent record, exactly when each record that pays is consistent. -/
theorem scans_closed_iff (ops : List CacheOp) (pairs : List HotRoute)
    (chains : List MultiHopHotRoute) (borrowAmounts : List Nat) :
    (ReturnsClosed (run (applyOp powf) PoolStateCache.new ops)
        (fun records => scanHotRoutes powf now (run (applyOp powf) PoolStateCache.new ops) records
          borrowAmounts)
        (HotConsistent (run (applyOp powf) PoolStateCache.new ops)) pairs ∧
      ReturnsClosed (run (applyOp powf) PoolStateCache.new ops)
        (fun records => scanMultihopHotRoutes powf now (run (applyOp powf) PoolStateCache.new ops)
          records borrowAmounts)
        (Consistent (run (applyOp powf) PoolStateCache.new ops)) chains) ↔
    (∀ record ∈ pairs,
      HotPays powf now (run (applyOp powf) PoolStateCache.new ops) borrowAmounts record →
        HotConsistent (run (applyOp powf) PoolStateCache.new ops) record) ∧
    ∀ record ∈ chains,
      Pays powf now (run (applyOp powf) PoolStateCache.new ops) borrowAmounts record →
        Consistent (run (applyOp powf) PoolStateCache.new ops) record := by
  have coherent := coherent_run powf ops ops (fun op member => member)
  have keyed : ∀ address pool,
      (run (applyOp powf) PoolStateCache.new ops).get address = some pool →
        pool.poolAddress = address :=
    fun address pool found => (coherent.cached address pool found).1
  apply and_congr
  · exact returnsClosed_iff _ _ _ pairs (hotPays_iff keyed borrowAmounts)
      (closed_of_hotConsistent keyed borrowAmounts)
  · exact returnsClosed_iff _ _ _ chains (pays_iff powf now _ keyed borrowAmounts)
      (closed_of_consistent powf now _ keyed borrowAmounts)

end Claim

/-! Records that the cache does not bear out. -/

section Mismatched

open OpportunityScanner

/-- WSOL against USDC twice, at rates 5 % apart, and against USDT once. -/
def recordedOps : List CacheOp :=
  [.upsert (anchoredPool 1 usdc (200 * 10 ^ 9)), .upsert (anchoredPool 2 usdt (190 * 10 ^ 9)),
    .upsert (anchoredPool 3 usdc (190 * 10 ^ 9))]

def recordedPools : PoolStateCache := run (applyOp plainPowf) PoolStateCache.new recordedOps

/-- Recorded as two pools of WSOL and USDC; the second trades USDT. -/
def mismatchedPair : HotRoute := ⟨.ofNat 1, .ofNat 2, wsol, usdc⟩

/-- Every pool trades the tokens it stands between, and the last token is not the first. -/
def openChain : MultiHopHotRoute :=
  ⟨[.ofNat 1, .ofNat 3, .ofNat 2], [wsol, usdc, wsol, usdt]⟩

def hopEnds (hop : Hop Double) : Pubkey × Pubkey × Pubkey := (hop.pool, hop.tokenIn, hop.tokenOut)

theorem scan_returns {Record : Type} (yields : Record → List (RouteParams Double))
    (record : Record) (ends : List (Pubkey × Pubkey × Pubkey))
    (found : (yields record).any (fun route => decide (routeTier recordedPools route < 99) &&
      decide (route.hops.map hopEnds = ends)) = true) :
    ∃ route ∈ rankRoutes recordedPools ([record].flatMap yields),
      route.hops.map hopEnds = ends := by
  rcases List.any_eq_true.mp found with ⟨route, member, both⟩
  rcases (Bool.and_eq_true _ _).mp both with ⟨low, named⟩
  refine ⟨{ route with tier := routeTier recordedPools route }, ?_, of_decide_eq_true named⟩
  exact (mem_rankRoutes recordedPools _ _).mpr
    ⟨route, List.mem_flatMap.mpr ⟨record, List.mem_singleton_self _, member⟩,
      of_decide_eq_true low, rfl⟩

/-- A hop through USDT is quoted as one through USDC, and a chain that ends in USDT is sent off
from WSOL. -/
theorem mismatched_returned :
    (∃ route ∈ scanHotRoutes plainPowf 0 recordedPools [mismatchedPair] [100000000],
      ¬ ClosedRoute recordedPools route) ∧
    ∃ route ∈ scanMultihopHotRoutes plainPowf 0 recordedPools [openChain] [100000000],
      ¬ ClosedRoute recordedPools route := by
  constructor
  · rcases scan_returns (hotRoutes plainPowf 0 recordedPools [100000000]) mismatchedPair
      [(.ofNat 1, wsol, usdc), (.ofNat 2, usdc, wsol)] (by decide +kernel) with
      ⟨route, returned, named⟩
    refine ⟨route, returned, ?_⟩
    intro closed
    have listed : (Pubkey.ofNat 2, usdc, wsol) ∈ route.hops.map hopEnds := by
      rw [named]
      exact List.mem_cons_of_mem _ List.mem_cons_self
    rcases List.mem_map.mp listed with ⟨hop, member, same⟩
    rcases closed.trades hop member with ⟨pool, cached, trades⟩
    rw [hopEnds, Prod.mk.injEq, Prod.mk.injEq] at same
    rw [same.1] at cached
    rw [same.2.1, same.2.2] at trades
    have other : (recordedPools.get (.ofNat 2)).all (fun pool =>
        decide (mints pool ≠ s(usdc, wsol))) = true := by
      decide +kernel
    rw [cached] at other
    exact of_decide_eq_true other trades
  · rcases scan_returns (multiHopRoutes plainPowf 0 recordedPools [100000000]) openChain
      [(.ofNat 1, wsol, usdc), (.ofNat 3, usdc, wsol), (.ofNat 2, wsol, usdt)]
      (by decide +kernel) with ⟨route, returned, named⟩
    refine ⟨route, returned, ?_⟩
    intro closed
    rcases closed.closed with ⟨mint, walk⟩
    have starts : route.hops.map Hop.tokenIn = [wsol, usdc, wsol] := by
      have projected := congrArg (List.map (fun ends => ends.2.1)) named
      rwa [List.map_map] at projected
    have stops : route.hops.map Hop.tokenOut = [usdc, wsol, usdt] := by
      have projected := congrArg (List.map (fun ends => ends.2.2)) named
      rwa [List.map_map] at projected
    have path : Walk Prod.fst Prod.snd mint [(wsol, usdc), (usdc, wsol), (wsol, usdt)] mint :=
      (walk_congr Hop.tokenIn Hop.tokenOut Prod.fst Prod.snd mint mint route.hops
        [(wsol, usdc), (usdc, wsol), (wsol, usdt)] starts stops).mp walk
    have different : usdt ≠ wsol := by decide +kernel
    exact different (path.2.2.2.trans path.1.symm)

end Mismatched

end Helios.HotPairs
