import Helios.GraphAgreement
import Helios.PairIndex
import Helios.Walks

/-! From a negative cycle of the token graph to a route. The cycle's edges come from
the graph a scan leaves, which may be older than the pools the route is quoted on. -/

namespace Helios.RouteEngine

open Machine FloatArith

def maxHops : Nat := 5
def maxReturnBps : Nat := 2000
def txFeePerHop : Nat := 5000

/-- The mints that flash loan providers lend. -/
def borrowableMints : List Pubkey := [wsol, usdc]

section Cycle

variable {F : Type} [FloatArith F]

/-- 10 %. -/
def maxHopImpactPct : F := ofNat 10

/-- The highest impact over the hops, as a share that is at most one. -/
def computeRiskFactor (hops : List (Hop F)) : F :=
  FloatArith.min (div ((hops.map Hop.priceImpact).foldl FloatArith.max (ofNat 0)) (ofNat 100))
    (ofNat 1)

variable (powf : F → F → F) (now : Instant) (tg : TokenGraph) (cache : PoolStateCache)

/-- A hop's quote: towards side B exactly if the token paid in is the pool's `token_a`. -/
def hopQuote (pool : DexPool) (tokenIn : Pubkey) (amountIn : Nat) : Nat :=
  pool.quote powf now (decide (tokenIn = pool.tokenA)) amountIn

/-- One parallel edge of `best_edge_for_pair`. -/
def considerEdge (amountIn : Nat) (best : Option (EdgeData × Nat × F)) (edge : EdgeData) :
    Option (EdgeData × Nat × F) :=
  match cache.get edge.pool with
  | none => best
  | some pool =>
      let amountOut := hopQuote powf now pool edge.tokenIn amountIn
      if amountOut = 0 then best
      else
        let impact : F := CrossDex.priceImpact pool (decide (edge.tokenIn = pool.tokenA)) amountIn
        match best with
        | none => some (edge, amountOut, impact)
        | some (_, bestOut, bestImpact) =>
            if amountOut < bestOut ∨ (amountOut = bestOut ∧ le bestImpact impact) then best
            else some (edge, amountOut, impact)

/-- The edges from one node to another, the latest first. -/
def edgesConnecting (source target : Nat) : List EdgeData :=
  (tg.graph.edges.reverse.filter (fun edge =>
    decide (edge.source = source ∧ edge.target = target))).map DiEdge.weight

def bestEdgeForPair (source target amountIn : Nat) : Option (EdgeData × Nat × F) :=
  (edgesConnecting tg source target).foldl (considerEdge powf now cache amountIn) none

/-- The hops along the cycle, each on the best of the parallel edges. -/
def cycleHops : Nat → List (Nat × Nat) → Option (List (Hop F))
  | _, [] => some []
  | amountIn, (source, target) :: rest =>
      match bestEdgeForPair powf now tg cache source target amountIn with
      | none => none
      | some (edge, amountOut, impact) =>
          if lt maxHopImpactPct impact then none
          else
            (cycleHops amountOut rest).map (fun hops =>
              { pool := edge.pool
                dexProgram := edge.dexProgram
                tokenIn := edge.tokenIn
                tokenOut := edge.tokenOut
                amountOut := amountOut
                priceImpact := impact } :: hops)

/-- Each node of a cycle with the one after it. -/
def cycleSteps (cycleNodes : List Nat) : List (Nat × Nat) := cycleNodes.zip (cycleNodes.rotate 1)

def tradesPair (first second : Pubkey) (pool : DexPool) : Bool :=
  decide ((pool.tokenA = first ∧ pool.tokenB = second) ∨
    (pool.tokenB = first ∧ pool.tokenA = second))

/-- The first cached pool of a pair. -/
def poolOfPair (first second : Pubkey) : Option Pubkey :=
  (cache.inner.entries.find? (fun entry => tradesPair first second entry.2)).map Sigma.fst

/-- A missing token falls back to the first node. -/
def nodeOf (token : Pubkey) : Nat := (HashMap.get tg.nodeMap token).getD 0

/-- A hop from WSOL in front, and one back to WSOL behind. -/
def bridgeHops (firstToken : Pubkey) (bridgeOut : Nat) (bridgeImpact : F)
    (bridgePool returnPool : Pubkey) (hops : List (Hop F)) : List (Hop F) :=
  match cache.get bridgePool with
  | none => hops
  | some bridgeEntry =>
      let bridged := { pool := bridgePool
                       dexProgram := inferDexProgram bridgeEntry
                       tokenIn := wsol
                       tokenOut := firstToken
                       amountOut := bridgeOut
                       priceImpact := bridgeImpact } :: hops
      match cache.get returnPool with
      | none => bridged
      | some returnEntry =>
          bridged ++ [{ pool := returnPool
                        dexProgram := inferDexProgram returnEntry
                        tokenIn := firstToken
                        tokenOut := wsol
                        amountOut := 0
                        priceImpact := ofNat 0 }]

/-- The cycle turned to a mint that can be borrowed, else with a bridge from WSOL. -/
def anchoredHops (borrowAmount : Nat) (hops : List (Hop F)) : Option (List (Hop F)) :=
  match hops.findIdx? (fun hop => decide (hop.tokenIn ∈ borrowableMints)) with
  | some place => some (hops.rotate place)
  | none => do
      let head ← hops.head?
      let (_, bridgeOut, bridgeImpact) ←
        bestEdgeForPair powf now tg cache (nodeOf tg wsol) (nodeOf tg head.tokenIn) borrowAmount
      let bridgePool ← poolOfPair cache wsol head.tokenIn
      let returnPool ← poolOfPair cache head.tokenIn wsol
      return bridgeHops cache head.tokenIn bridgeOut bridgeImpact bridgePool returnPool hops

/-- The hops quoted again one after the other, with the last output. -/
def requote : Nat → List (Hop F) → Option (List (Hop F) × Nat)
  | currentAmount, [] => some ([], currentAmount)
  | currentAmount, hop :: rest =>
      match cache.get hop.pool with
      | none => none
      | some pool =>
          let aToB := decide (hop.tokenIn = pool.tokenA)
          let amountOut := hopQuote powf now pool hop.tokenIn currentAmount
          let impact : F := CrossDex.priceImpact pool aToB currentAmount
          if amountOut = 0 then none
          else if CrossDex.reserveIn pool aToB < saturatingMul64 currentAmount 2 then none
          else if lt maxHopImpactPct impact then none
          else
            (requote amountOut rest).map (fun (hops, last) =>
              ({ hop with amountOut := amountOut, priceImpact := impact } :: hops, last))

def maxReturn (borrowAmount : Nat) : Nat :=
  saturatingAdd64 borrowAmount (borrowAmount / 10000 * maxReturnBps)

def netOf (grossProfit hops : Nat) : Int :=
  wrapI64 (wrapI64 grossProfit - wrapI64 (wrap 64 (txFeePerHop * hops)))

def routeOf (borrowAmount currentAmount : Nat) (hops : List (Hop F)) : RouteParams F :=
  { hops := hops
    borrowAmount := borrowAmount
    grossProfit := currentAmount - borrowAmount
    netProfit := netOf (currentAmount - borrowAmount) hops.length
    riskFactor := computeRiskFactor hops
    strategy := "bellman-ford"
    tier := 0 }

def startsBorrowable (hops : List (Hop F)) : Bool :=
  hops.head?.any (fun hop => decide (hop.tokenIn ∈ borrowableMints))

def cycleToRoute (cycleNodes : List Nat) (borrowAmount : Nat) : Option (RouteParams F) :=
  if cycleNodes.length < 2 ∨ maxHops < cycleNodes.length then none
  else do
    let found ← cycleHops powf now tg cache borrowAmount (cycleSteps cycleNodes)
    if found.length < 2 then none
    else do
      let anchored ← anchoredHops powf now tg cache borrowAmount found
      if !startsBorrowable anchored then none
      else do
        let (hops, currentAmount) ← requote powf now cache borrowAmount anchored
        if maxReturn borrowAmount < currentAmount then none
        else some (routeOf borrowAmount currentAmount hops)

/-! The hops of a cycle: edges of the graph, one after the other. -/

theorem foldl_considerEdge (amountIn : Nat) (edges : List EdgeData)
    (start : Option (EdgeData × Nat × F)) (edge : EdgeData) (amountOut : Nat) (impact : F)
    (best : edges.foldl (considerEdge powf now cache amountIn) start =
      some (edge, amountOut, impact)) :
    start = some (edge, amountOut, impact) ∨ edge ∈ edges := by
  induction edges generalizing start with
  | nil => exact Or.inl best
  | cons head rest ih =>
      rw [List.foldl_cons] at best
      rcases ih _ best with kept | later
      · rw [considerEdge] at kept
        split at kept
        · exact Or.inl kept
        · dsimp only at kept
          split at kept
          · exact Or.inl kept
          · split at kept
            · cases kept
              exact Or.inr List.mem_cons_self
            · split at kept
              · exact Or.inl kept
              · cases kept
                exact Or.inr List.mem_cons_self
      · exact Or.inr (List.mem_cons_of_mem _ later)

/-- The edge chosen between two nodes is named by them. -/
theorem bestEdgeForPair_spec (named : tg.graph.Named EdgeData.tokenIn EdgeData.tokenOut)
    (source target amountIn : Nat) (edge : EdgeData) (amountOut : Nat) (impact : F)
    (best : bestEdgeForPair powf now tg cache source target amountIn =
      some (edge, amountOut, impact)) :
    edge ∈ tg.graph.weights ∧ tg.graph.nodes[source]? = some edge.tokenIn ∧
      tg.graph.nodes[target]? = some edge.tokenOut := by
  rcases foldl_considerEdge powf now cache amountIn _ none edge amountOut impact best with
    absurd | member
  · cases absurd
  · rcases List.mem_map.mp member with ⟨held, kept, same⟩
    rcases List.mem_filter.mp kept with ⟨listed, ends⟩
    rcases of_decide_eq_true ends with ⟨atSource, atTarget⟩
    have inGraph := List.mem_reverse.mp listed
    rcases named held inGraph with ⟨here, there⟩
    rw [← atSource, ← atTarget, ← same]
    exact ⟨List.mem_map_of_mem inGraph, here, there⟩

/-- A hop along an edge of the graph. -/
def OfEdge (hop : Hop F) : Prop :=
  ∃ edge ∈ tg.graph.weights, edge.pool = hop.pool ∧ edge.tokenIn = hop.tokenIn ∧
    edge.tokenOut = hop.tokenOut

theorem cycleHops_spec (named : tg.graph.Named EdgeData.tokenIn EdgeData.tokenOut)
    (amountIn first last : Nat) (steps : List (Nat × Nat)) (hops : List (Hop F))
    (walk : Walk Prod.fst Prod.snd first steps last)
    (found : cycleHops powf now tg cache amountIn steps = some hops) :
    Walk (some ∘ Hop.tokenIn) (some ∘ Hop.tokenOut) tg.graph.nodes[first]? hops
        tg.graph.nodes[last]? ∧
      (∀ hop ∈ hops, OfEdge tg hop) ∧ hops.length = steps.length := by
  induction steps generalizing amountIn first hops with
  | nil =>
      cases found
      exact ⟨congrArg (fun place => tg.graph.nodes[place]?) walk, by simp, rfl⟩
  | cons step rest ih =>
      rcases step with ⟨source, target⟩
      rcases walk with ⟨here, later⟩
      dsimp only at here later
      rw [cycleHops] at found
      cases best : bestEdgeForPair powf now tg cache source target amountIn with
      | none =>
          rw [best] at found
          cases found
      | some chosen =>
          rcases chosen with ⟨edge, amountOut, impact⟩
          rw [best] at found
          dsimp only at found
          split at found
          · cases found
          · rcases Option.map_eq_some_iff.mp found with ⟨tail, rest, same⟩
            rcases ih amountOut target tail later rest with ⟨walk, edges, count⟩
            rcases bestEdgeForPair_spec powf now tg cache named source target amountIn edge
              amountOut impact best with ⟨member, atSource, atTarget⟩
            subst same
            rw [atTarget] at walk
            refine ⟨⟨?_, walk⟩, ?_, congrArg Nat.succ count⟩
            · rw [← here, atSource]
              rfl
            · intro hop listed
              rcases List.mem_cons.mp listed with same | inside
              · rw [same]
                exact ⟨edge, member, rfl, rfl, rfl⟩
              · exact edges hop inside

/-- A hop between the two tokens of its cached pool. -/
def OfPool (hop : Hop F) : Prop :=
  ∃ pool, cache.get hop.pool = some pool ∧ tradesPair hop.tokenIn hop.tokenOut pool = true

theorem poolOfPair_spec (first second address : Pubkey)
    (found : poolOfPair cache first second = some address) :
    ∃ pool, cache.get address = some pool ∧ tradesPair first second pool = true := by
  rcases Option.map_eq_some_iff.mp found with ⟨⟨key, pool⟩, listed, same⟩
  subst same
  have trades := List.find?_some listed
  exact ⟨pool, AList.mem_lookup_iff.mpr (List.mem_of_find?_eq_some listed), trades⟩

theorem bridgeHops_spec (firstToken bridgePool returnPool : Pubkey) (bridgeOut : Nat)
    (bridgeImpact : F) (hops : List (Hop F))
    (bridge : poolOfPair cache wsol firstToken = some bridgePool)
    (return_ : poolOfPair cache firstToken wsol = some returnPool)
    (closed : Walk Hop.tokenIn Hop.tokenOut firstToken hops firstToken) :
    Walk Hop.tokenIn Hop.tokenOut wsol
        (bridgeHops cache firstToken bridgeOut bridgeImpact bridgePool returnPool hops) wsol ∧
      (∀ hop ∈ bridgeHops cache firstToken bridgeOut bridgeImpact bridgePool returnPool hops,
        hop ∈ hops ∨ OfPool cache hop) ∧
      (bridgeHops cache firstToken bridgeOut bridgeImpact bridgePool returnPool hops).length =
        hops.length + 2 := by
  rcases poolOfPair_spec cache _ _ _ bridge with ⟨bridgeEntry, bridgeFound, bridgeTrades⟩
  rcases poolOfPair_spec cache _ _ _ return_ with ⟨returnEntry, returnFound, returnTrades⟩
  rw [bridgeHops, bridgeFound]
  dsimp only
  rw [returnFound]
  dsimp only
  refine ⟨⟨rfl, (walk_append _ _ _ _ _ _).mpr ⟨firstToken, closed, rfl, rfl⟩⟩, ?_, ?_⟩
  · intro hop member
    rw [List.mem_append, List.mem_cons, List.mem_singleton] at member
    rcases member with (front | inside) | behind
    · rw [front]
      exact Or.inr ⟨bridgeEntry, bridgeFound, bridgeTrades⟩
    · exact Or.inl inside
    · rw [behind]
      exact Or.inr ⟨returnEntry, returnFound, returnTrades⟩
  · simp

/-- Turned or bridged, the cycle stays closed, from a mint that can be borrowed. -/
theorem anchoredHops_spec (borrowAmount : Nat) (start : Option Pubkey)
    (found hops : List (Hop F))
    (closed : Walk (some ∘ Hop.tokenIn) (some ∘ Hop.tokenOut) start found start)
    (anchored : anchoredHops powf now tg cache borrowAmount found = some hops) :
    (∃ mint ∈ borrowableMints, Walk Hop.tokenIn Hop.tokenOut mint hops mint) ∧
      (∀ hop ∈ hops, hop ∈ found ∨ OfPool cache hop) ∧ hops.length ≤ found.length + 2 ∧
      found.length ≤ hops.length := by
  rw [anchoredHops] at anchored
  split at anchored
  · next place at_ =>
      cases anchored
      rcases List.findIdx?_eq_some_iff_getElem.mp at_ with ⟨inside, borrowable, -⟩
      have item := List.getElem?_eq_getElem inside
      have turned := walk_rotate _ _ start found place found[place] item closed
      refine ⟨⟨found[place].tokenIn, of_decide_eq_true borrowable, ?_⟩, ?_, ?_, ?_⟩
      · exact (walk_comp _ _ some (Option.some_injective _) _ _ _).mp turned
      · intro hop member
        exact Or.inl (List.mem_rotate.mp member)
      · rw [List.length_rotate]
        omega
      · rw [List.length_rotate]
  · rcases Option.bind_eq_some_iff.mp anchored with ⟨head, first, anchored⟩
    rcases Option.bind_eq_some_iff.mp anchored with ⟨⟨edge, bridgeOut, bridgeImpact⟩, -, anchored⟩
    rcases Option.bind_eq_some_iff.mp anchored with ⟨bridgePool, bridge, anchored⟩
    rcases Option.bind_eq_some_iff.mp anchored with ⟨returnPool, return_, anchored⟩
    cases anchored
    cases found with
    | nil => cases first
    | cons other rest =>
        cases first
        have startIs : start = some head.tokenIn := closed.1.symm
        rw [startIs] at closed
        have plain := (walk_comp _ _ some (Option.some_injective _) _ _ _).mp closed
        rcases bridgeHops_spec cache head.tokenIn bridgePool returnPool bridgeOut bridgeImpact
          (head :: rest) bridge return_ plain with ⟨walk, kinds, count⟩
        refine ⟨⟨wsol, List.mem_cons_self, walk⟩, kinds, le_of_eq count, ?_⟩
        rw [count]
        omega

/-- A hop whose output is its cached pool's quote. -/
def QuotedBy (amountIn : Nat) (hop : Hop F) : Prop :=
  ∃ pool, cache.get hop.pool = some pool ∧ hop.amountOut = hopQuote powf now pool hop.tokenIn amountIn

/-- The pool of a hop and the tokens it trades. -/
def swapOf (hop : Hop F) : Pubkey × Pubkey × Pubkey := (hop.pool, hop.tokenIn, hop.tokenOut)

/-- Quoting again changes outputs and impacts alone. -/
theorem requote_spec (amount last : Nat) (hops after : List (Hop F))
    (quoted : requote powf now cache amount hops = some (after, last)) :
    Threaded (QuotedBy powf now cache) Hop.amountOut amount after last ∧
      after.map swapOf = hops.map swapOf := by
  induction hops generalizing amount after with
  | nil =>
      cases quoted
      exact ⟨rfl, rfl⟩
  | cons hop rest ih =>
      rw [requote] at quoted
      cases cached : cache.get hop.pool with
      | none =>
          rw [cached] at quoted
          cases quoted
      | some pool =>
          rw [cached] at quoted
          simp only [Option.ite_none_left_eq_some] at quoted
          rcases Option.map_eq_some_iff.mp quoted.2.2.2 with ⟨⟨tail, final⟩, later, same⟩
          cases same
          rcases ih _ tail later with ⟨threaded, swaps⟩
          exact ⟨⟨⟨pool, cached, rfl⟩, threaded⟩, congrArg (List.cons _) swaps⟩

omit [FloatArith F] in
theorem walk_of_swaps (first last : Pubkey) (hops after : List (Hop F))
    (swaps : after.map swapOf = hops.map swapOf)
    (walk : Walk Hop.tokenIn Hop.tokenOut first hops last) :
    Walk Hop.tokenIn Hop.tokenOut first after last := by
  have tokensIn := congrArg (List.map (fun swap => swap.2.1)) swaps
  have tokensOut := congrArg (List.map (fun swap => swap.2.2)) swaps
  rw [List.map_map, List.map_map] at tokensIn tokensOut
  exact (walk_congr _ _ _ _ first last after hops tokensIn tokensOut).mpr walk

end Cycle

/-! Where the edges come from: pools of the scans, as they were then. -/

section Runs

variable {F : Type} [FloatArith F] (env : Env F)

/-- The edge was made for a pool that one of the scans saw, between its two tokens. -/
def OfScans (scans : List (Scan F)) (edge : EdgeData) : Prop :=
  ∃ scan ∈ scans, ∃ pool ∈ scan.pools, pool.poolAddress = edge.pool ∧
    tradesPair edge.tokenIn edge.tokenOut pool = true

theorem ofScans_rebuild (scans : List (Scan F)) (scan : Scan F) (member : scan ∈ scans) :
    ∀ edge ∈ (rebuild env scan).weights, OfScans scans edge := by
  intro edge listed
  rw [weights_rebuild] at listed
  rcases List.mem_flatMap.mp listed with ⟨pool, inside, offer⟩
  rcases List.mem_map.mp offer with ⟨aToB, -, same⟩
  subst same
  refine ⟨scan, member, pool, inside, rfl, ?_⟩
  cases aToB with
  | true => exact decide_eq_true (Or.inl ⟨rfl, rfl⟩)
  | false => exact decide_eq_true (Or.inr ⟨rfl, rfl⟩)

omit [FloatArith F] in
theorem ofScans_update (scans : List (Scan F)) (held : PersistentGraph) (scan : Scan F)
    (sound : held.Sound) (known : ∀ edge ∈ held.weights, OfScans scans edge) :
    ∀ edge ∈ (update held scan).weights, OfScans scans edge := by
  intro edge listed
  rw [weights_update held scan sound] at listed
  rcases List.mem_map.mp listed with ⟨before, inside, same⟩
  subst same
  rcases known before inside with ⟨seen, member, pool, inScan, address, trades⟩
  refine ⟨seen, member, pool, inScan, ?_, ?_⟩
  · rw [pool_renewAll]
    exact address
  · rw [tokenIn_renewAll, tokenOut_renewAll]
    exact trades

/-- What holds of the graph after any scans. -/
def Known (scans : List (Scan F)) (held : Option PersistentGraph) : Prop :=
  ∀ pg, held = some pg → pg.Sound ∧ ∀ edge ∈ pg.weights, OfScans scans edge

theorem known_scanStep (scans : List (Scan F)) (held : Option PersistentGraph) (scan : Scan F)
    (member : scan ∈ scans) (known : Known scans held) : Known scans (scanStep env held scan) := by
  intro pg same
  cases same
  refine ⟨sound_scanGraph env held scan (fun pg here => (known pg here).1), ?_⟩
  cases held with
  | none => exact ofScans_rebuild env scans scan member
  | some before =>
      rw [scanGraph]
      split
      · exact ofScans_rebuild env scans scan member
      · exact ofScans_update scans before scan (known before rfl).1 (known before rfl).2

theorem known_run (scans : List (Scan F)) : Known scans (Runs.run (scanStep env) none scans) := by
  apply Runs.run_invariant
  · intro pg absurd
    cases absurd
  · intro pair member known
    exact known_scanStep env scans pair.1 pair.2 (Runs.trace_input _ _ _ pair member) known

end Runs

section Soundness

variable {F : Type} [FloatArith F] (env : Env F)

/-- The hop's two tokens are those of its pool, as the cache holds it now, or as it was
when one of the scans made the edge. -/
def PoolTokens (scans : List (Scan F)) (cache : PoolStateCache) (hop : Hop F) : Prop :=
  ∃ pool, cache.get hop.pool = some pool ∧
    (tradesPair hop.tokenIn hop.tokenOut pool = true ∨
      ∃ scan ∈ scans, ∃ seen ∈ scan.pools, seen.poolAddress = hop.pool ∧
        tradesPair hop.tokenIn hop.tokenOut seen = true)

/-- What is promised of a route made from a cycle. -/
structure CycleRoute (scans : List (Scan F)) (cache : PoolStateCache) (now : Instant)
    (borrowAmount : Nat) (route : RouteParams F) : Prop where
  borrowed : route.borrowAmount = borrowAmount
  several : 2 ≤ route.hops.length
  closed : ∃ mint ∈ borrowableMints, Walk Hop.tokenIn Hop.tokenOut mint route.hops mint
  pools : ∀ hop ∈ route.hops, PoolTokens scans cache hop
  profit : ∃ last, Threaded (QuotedBy env.powf now cache) Hop.amountOut borrowAmount route.hops last ∧
    route.grossProfit = last - borrowAmount ∧
    route.netProfit = route.grossProfit - 5000 * route.hops.length ∧
    10 * last ≤ 12 * borrowAmount

/-- Neither the profit nor the fees wrap. -/
theorem netOf_eq (borrowAmount last hops : Nat) (few : hops ≤ 7)
    (capped : last ≤ maxReturn borrowAmount) :
    netOf (last - borrowAmount) hops = ((last - borrowAmount : Nat) : Int) - 5000 * hops := by
  have small : last - borrowAmount < 2 ^ 62 := by
    simp only [maxReturn, saturatingAdd64, maxReturnBps, u64Max] at capped
    omega
  have gains : wrapI64 ((last - borrowAmount : Nat) : Int) = (last - borrowAmount : Nat) :=
    wrapI64_of_bounds _ (by omega) (by omega)
  have fees : wrapI64 ((wrap 64 (txFeePerHop * hops) : Nat) : Int) = 5000 * hops := by
    rw [txFeePerHop, wrap_of_lt 64 _ (by omega), wrapI64_of_bounds _ (by omega) (by omega)]
    push_cast
    rfl
  rw [netOf, gains, fees, wrapI64_of_bounds _ (by omega) (by omega)]

theorem last_le_of_capped (borrowAmount last : Nat) (capped : last ≤ maxReturn borrowAmount) :
    10 * last ≤ 12 * borrowAmount := by
  simp only [maxReturn, saturatingAdd64, maxReturnBps] at capped
  omega

/-- Every route that a cycle of the engine's graph gives, over any scans before it and any
pools cached now. -/
theorem cycle_route_sound (scans : List (Scan F)) (held : PersistentGraph)
    (reached : Runs.run (scanStep env) none scans = some held) (cache : PoolStateCache)
    (now : Instant) (cycleNodes : List Nat) (borrowAmount : Nat) (route : RouteParams F)
    (built : cycleToRoute env.powf now held.graph cache cycleNodes borrowAmount = some route) :
    CycleRoute env scans cache now borrowAmount route := by
  rcases known_run env scans held reached with ⟨sound, known⟩
  have named := sound.coherent.named
  rw [cycleToRoute, Option.ite_none_left_eq_some] at built
  rcases built with ⟨sized, built⟩
  rcases Option.bind_eq_some_iff.mp built with ⟨found, cycle, built⟩
  rw [Option.ite_none_left_eq_some] at built
  rcases built with ⟨enough, built⟩
  rcases Option.bind_eq_some_iff.mp built with ⟨anchored, turned, built⟩
  rw [Option.ite_none_left_eq_some] at built
  rcases Option.bind_eq_some_iff.mp built.2 with ⟨⟨hops, last⟩, quoted, built⟩
  rw [Option.ite_none_left_eq_some] at built
  rcases built with ⟨capped, built⟩
  cases built
  cases cycleNodes with
  | nil => exact absurd sized (by simp)
  | cons first rest =>
      have steps : Walk Prod.fst Prod.snd first (cycleSteps (first :: rest)) first := by
        rw [cycleSteps, List.rotate_cons_succ, List.rotate_zero]
        exact walk_zip first first rest
      rcases cycleHops_spec env.powf now held.graph cache named borrowAmount first first _ found
        steps cycle with ⟨closed, edges, count⟩
      rcases anchoredHops_spec env.powf now held.graph cache borrowAmount _ found anchored closed
        turned with ⟨⟨mint, lent, walk⟩, kinds, atMost, atLeast⟩
      rcases requote_spec env.powf now cache borrowAmount last anchored hops quoted with
        ⟨threaded, swaps⟩
      have same : hops.length = anchored.length := by
        have lengths := congrArg List.length swaps
        rwa [List.length_map, List.length_map] at lengths
      have short : (cycleSteps (first :: rest)).length = (first :: rest).length := by
        simp [cycleSteps]
      have few : hops.length ≤ 7 := by
        simp only [maxHops, not_or, not_lt] at sized
        omega
      have tokens : ∀ hop ∈ hops, PoolTokens scans cache hop := by
        intro hop member
        rcases threaded_mem _ _ _ _ _ threaded hop member with ⟨-, pool, cached, -⟩
        have listed : swapOf hop ∈ hops.map swapOf := List.mem_map_of_mem member
        rw [swaps] at listed
        rcases List.mem_map.mp listed with ⟨before, inside, ends⟩
        simp only [swapOf, Prod.mk.injEq] at ends
        rcases ends with ⟨address, tokenIn, tokenOut⟩
        refine ⟨pool, cached, ?_⟩
        rcases kinds before inside with ofCycle | ⟨entry, found, trades⟩
        · rcases edges before ofCycle with ⟨edge, weight, edgePool, edgeIn, edgeOut⟩
          rcases known edge weight with ⟨scan, among, seen, inScan, own, trades⟩
          rw [edgeIn, edgeOut, tokenIn, tokenOut] at trades
          exact Or.inr ⟨scan, among, seen, inScan, own.trans (edgePool.trans address), trades⟩
        · rw [address, cached] at found
          cases found
          rw [tokenIn, tokenOut] at trades
          exact Or.inl trades
      have nets : (routeOf borrowAmount last hops).netProfit =
          ((routeOf borrowAmount last hops).grossProfit : Int) -
            5000 * (routeOf borrowAmount last hops).hops.length := by
        simp only [routeOf]
        exact netOf_eq borrowAmount last hops.length few (not_lt.mp capped)
      exact {
        borrowed := rfl
        several := by
          change 2 ≤ hops.length
          omega
        closed := ⟨mint, lent, walk_of_swaps mint mint anchored hops swaps walk⟩
        pools := tokens
        profit := ⟨last, threaded, rfl, nets,
          last_le_of_capped borrowAmount last (not_lt.mp capped)⟩ }

end Soundness

/-! Two pools between WSOL and one more token, and the cycle through both. -/

def cyclePool (address : Nat) (tokenA tokenB : Pubkey) (reserveB : Nat) : DexPool :=
  { stablePool with
    poolAddress := .ofNat address, tokenA := tokenA, tokenB := tokenB
    reserveA := 10 ^ 9, reserveB := reserveB }

def cycleScan : Scan Double :=
  ⟨[cyclePool 1 wsol (.ofNat 5) (10 ^ 9), cyclePool 2 (.ofNat 5) wsol (10 ^ 9)], by decide, none, 0⟩

/-- The pools the scan saw. -/
def scannedCache : PoolStateCache :=
  (PoolStateCache.new.upsert (cyclePool 1 wsol (.ofNat 5) (10 ^ 9))).upsert
    (cyclePool 2 (.ofNat 5) wsol (10 ^ 9))

/-- The second pool inserted again with USDT in place of WSOL. -/
def reinsertedCache : PoolStateCache :=
  scannedCache.upsert (cyclePool 2 (.ofNat 5) usdt (11 * 10 ^ 8))

def cycleRouteOn (cache : PoolStateCache) : Option (RouteParams Double) :=
  cycleToRoute plainEnv.powf 0 (rebuild plainEnv cycleScan).graph cache [0, 1] 1000000

def lastOutput (route : RouteParams Double) : Nat := (route.hops.getLast?.map Hop.amountOut).getD 0

/-- Some hop's tokens are not those of its cached pool. -/
def mismatched (cache : PoolStateCache) (route : RouteParams Double) : Bool :=
  route.hops.any (fun hop =>
    (cache.get hop.pool).any (fun pool => !tradesPair hop.tokenIn hop.tokenOut pool))

theorem losing_cycle : ∃ route, cycleRouteOn scannedCache = some route ∧
    route.grossProfit = 0 ∧ lastOutput route = 993026 ∧ route.borrowAmount = 1000000 := by
  have loses : (cycleRouteOn scannedCache).map (fun route =>
      (route.grossProfit, lastOutput route, route.borrowAmount)) = some (0, 993026, 1000000) := by
    decide +kernel
  rcases Option.map_eq_some_iff.mp loses with ⟨route, built, amounts⟩
  simp only [Prod.mk.injEq] at amounts
  exact ⟨route, built, amounts⟩

/-- A cycle that loses has a gross profit of zero, and the pool inserted again is used
between the tokens it had. -/
theorem losing_and_reinserted_cycles :
    (∃ route, cycleRouteOn scannedCache = some route ∧
      (route.grossProfit : Int) ≠ lastOutput route - route.borrowAmount) ∧
    ∃ route, cycleRouteOn reinsertedCache = some route ∧
      mismatched reinsertedCache route = true := by
  constructor
  · rcases losing_cycle with ⟨route, built, gross, last, borrowed⟩
    refine ⟨route, built, ?_⟩
    rw [gross, last, borrowed]
    norm_num
  · have stale : (cycleRouteOn reinsertedCache).map (mismatched reinsertedCache) = some true := by
      decide +kernel
    exact Option.map_eq_some_iff.mp stale

theorem cycle_route_sound_scannedCache :
    ∃ route, cycleRouteOn scannedCache = some route ∧
      CycleRoute plainEnv [cycleScan] scannedCache 0 1000000 route := by
  rcases losing_cycle with ⟨route, same, -⟩
  exact ⟨route, same, cycle_route_sound plainEnv [cycleScan] (rebuild plainEnv cycleScan) rfl
    scannedCache 0 [0, 1] 1000000 route same⟩

end Helios.RouteEngine
