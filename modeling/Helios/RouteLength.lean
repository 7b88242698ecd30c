import Helios.CycleRoute

/-! How long a route is. The cycle is held to `maxHops`; the bridge from WSOL and back
comes after, and only where no token of the cycle can be borrowed. -/

namespace Helios.RouteEngine

section Length

variable {F : Type} [FloatArith F] (powf : F → F → F) (now : Instant) (tg : TokenGraph)
variable (cache : PoolStateCache)

/-- The hops pay in the tokens of the nodes they leave. -/
theorem tokensIn_cycleHops (named : tg.graph.Named EdgeData.tokenIn EdgeData.tokenOut)
    (amountIn : Nat) (steps : List (Nat × Nat)) (hops : List (Hop F))
    (found : cycleHops powf now tg cache amountIn steps = some hops) :
    hops.map (some ∘ Hop.tokenIn) = steps.map (fun step => tg.graph.nodes[step.1]?) := by
  induction steps generalizing amountIn hops with
  | nil =>
      cases found
      rfl
  | cons step rest ih =>
      rcases step with ⟨source, target⟩
      rw [cycleHops] at found
      cases best : bestEdgeForPair powf now tg cache source target amountIn with
      | none =>
          rw [best] at found
          cases found
      | some chosen =>
          rcases chosen with ⟨edge, amountOut, impact⟩
          rw [best] at found
          simp only [Option.ite_none_left_eq_some] at found
          rcases Option.map_eq_some_iff.mp found.2 with ⟨tail, later, same⟩
          have leaves := (bestEdgeForPair_spec powf now tg cache named source target amountIn edge
            amountOut impact best).2.1
          subst same
          rw [List.map_cons, List.map_cons, ih amountOut tail later, leaves]
          rfl

/-- Some token of the cycle can be borrowed. -/
def Lends (cycleNodes : List Nat) : Prop :=
  ∃ node ∈ cycleNodes, ∃ mint ∈ borrowableMints, tg.graph.nodes[node]? = some mint

theorem sources_cycleSteps (cycleNodes : List Nat) :
    (cycleSteps cycleNodes).map Prod.fst = cycleNodes := by
  rw [cycleSteps, List.map_fst_zip]
  rw [List.length_rotate]

omit [FloatArith F] in
theorem lends_iff (cycleNodes : List Nat) (hops : List (Hop F))
    (tokens : hops.map (some ∘ Hop.tokenIn) =
      (cycleSteps cycleNodes).map (fun step => tg.graph.nodes[step.1]?)) :
    Lends tg cycleNodes ↔ ∃ hop ∈ hops, hop.tokenIn ∈ borrowableMints := by
  have places : hops.map (some ∘ Hop.tokenIn) =
      cycleNodes.map (fun node => tg.graph.nodes[node]?) := by
    rw [tokens]
    conv_rhs => rw [← sources_cycleSteps cycleNodes, List.map_map]
    rfl
  constructor
  · intro ⟨node, member, mint, lent, label⟩
    have listed : some mint ∈ cycleNodes.map (fun node => tg.graph.nodes[node]?) :=
      List.mem_map.mpr ⟨node, member, label⟩
    rw [← places] at listed
    rcases List.mem_map.mp listed with ⟨hop, inside, same⟩
    cases same
    exact ⟨hop, inside, lent⟩
  · intro ⟨hop, inside, lent⟩
    have listed : some hop.tokenIn ∈ hops.map (some ∘ Hop.tokenIn) :=
      List.mem_map.mpr ⟨hop, inside, rfl⟩
    rw [places] at listed
    rcases List.mem_map.mp listed with ⟨node, member, label⟩
    exact ⟨node, member, hop.tokenIn, lent, label⟩

/-- The bridge adds a hop in front and one behind. -/
theorem length_bridgeHops (firstToken bridgePool returnPool : Pubkey) (bridgeOut : Nat)
    (bridgeImpact : F) (hops : List (Hop F))
    (bridge : poolOfPair cache wsol firstToken = some bridgePool)
    (return_ : poolOfPair cache firstToken wsol = some returnPool) :
    (bridgeHops cache firstToken bridgeOut bridgeImpact bridgePool returnPool hops).length =
      hops.length + 2 := by
  rcases poolOfPair_spec cache _ _ _ bridge with ⟨bridgeEntry, bridgeFound, -⟩
  rcases poolOfPair_spec cache _ _ _ return_ with ⟨returnEntry, returnFound, -⟩
  rw [bridgeHops, bridgeFound]
  dsimp only
  rw [returnFound]
  simp

theorem length_anchoredHops (borrowAmount : Nat) (found hops : List (Hop F))
    (anchored : anchoredHops powf now tg cache borrowAmount found = some hops) :
    ((∃ hop ∈ found, hop.tokenIn ∈ borrowableMints) → hops.length = found.length) ∧
      ((¬∃ hop ∈ found, hop.tokenIn ∈ borrowableMints) → hops.length = found.length + 2) := by
  rw [anchoredHops] at anchored
  cases at_ : found.findIdx? (fun hop => decide (hop.tokenIn ∈ borrowableMints)) with
  | some place =>
      rw [at_] at anchored
      cases anchored
      rcases List.findIdx?_eq_some_iff_getElem.mp at_ with ⟨inside, lent, -⟩
      constructor
      · intro _
        rw [List.length_rotate]
      · intro none_
        exact absurd ⟨found[place], List.getElem_mem inside, of_decide_eq_true lent⟩ none_
  | none =>
      rw [at_] at anchored
      have none_ : ¬∃ hop ∈ found, hop.tokenIn ∈ borrowableMints := by
        rintro ⟨hop, inside, lent⟩
        have refused := List.findIdx?_eq_none_iff.mp at_ hop inside
        rw [decide_eq_true lent] at refused
        cases refused
      rcases Option.bind_eq_some_iff.mp anchored with ⟨head, -, anchored⟩
      rcases Option.bind_eq_some_iff.mp anchored with
        ⟨⟨edge, bridgeOut, bridgeImpact⟩, -, anchored⟩
      rcases Option.bind_eq_some_iff.mp anchored with ⟨bridgePool, bridge, anchored⟩
      rcases Option.bind_eq_some_iff.mp anchored with ⟨returnPool, return_, anchored⟩
      cases anchored
      constructor
      · intro lends
        exact absurd lends none_
      · intro _
        exact length_bridgeHops cache head.tokenIn bridgePool returnPool bridgeOut bridgeImpact
          found bridge return_

theorem length_requote (amount last : Nat) (hops after : List (Hop F))
    (quoted : requote powf now cache amount hops = some (after, last)) :
    after.length = hops.length := by
  have lengths := congrArg List.length (requote_spec powf now cache amount last hops after quoted).2
  rwa [List.length_map, List.length_map] at lengths

/-- A route is as long as its cycle, or longer by the two hops of the bridge. -/
theorem length_cycleToRoute (named : tg.graph.Named EdgeData.tokenIn EdgeData.tokenOut)
    (cycleNodes : List Nat) (borrowAmount : Nat) (route : RouteParams F)
    (built : cycleToRoute powf now tg cache cycleNodes borrowAmount = some route) :
    cycleNodes.length ≤ maxHops ∧
      (Lends tg cycleNodes → route.hops.length = cycleNodes.length) ∧
      (¬Lends tg cycleNodes → route.hops.length = cycleNodes.length + 2) := by
  rw [cycleToRoute, Option.ite_none_left_eq_some] at built
  rcases built with ⟨sized, built⟩
  rcases Option.bind_eq_some_iff.mp built with ⟨found, cycle, built⟩
  rw [Option.ite_none_left_eq_some] at built
  rcases Option.bind_eq_some_iff.mp built.2 with ⟨anchored, turned, built⟩
  rw [Option.ite_none_left_eq_some] at built
  rcases Option.bind_eq_some_iff.mp built.2 with ⟨⟨hops, last⟩, quoted, built⟩
  rw [Option.ite_none_left_eq_some] at built
  rcases built with ⟨-, same⟩
  cases same
  have tokens := tokensIn_cycleHops powf now tg cache named borrowAmount _ found cycle
  have count : found.length = cycleNodes.length := by
    have lengths := congrArg List.length tokens
    rwa [List.length_map, List.length_map, cycleSteps, List.length_zip, List.length_rotate,
      Nat.min_self] at lengths
  have kept : hops.length = anchored.length :=
    length_requote powf now cache borrowAmount last anchored hops quoted
  rcases length_anchoredHops powf now tg cache borrowAmount found anchored turned with
    ⟨rotated, bridged⟩
  have lent := lends_iff tg cycleNodes found tokens
  rw [not_or, not_lt] at sized
  refine ⟨not_lt.mp sized.2, ?_, ?_⟩
  · intro lends
    exact kept.trans ((rotated (lent.mp lends)).trans count)
  · intro none_
    exact kept.trans ((bridged (fun lends => none_ (lent.mpr lends))).trans
      (congrArg (fun length => length + 2) count))

end Length

section Bound

variable {F : Type} [FloatArith F] (env : Env F)

end Bound

/-! A cycle of four tokens, none of them WSOL or USDC, with a pool that joins it to WSOL. -/

def ringPools : List DexPool :=
  [cyclePool 1 wsol (.ofNat 11) (10 ^ 9), cyclePool 2 (.ofNat 11) (.ofNat 12) (103 * 10 ^ 7),
    cyclePool 3 (.ofNat 12) (.ofNat 13) (103 * 10 ^ 7),
    cyclePool 4 (.ofNat 13) (.ofNat 14) (103 * 10 ^ 7),
    cyclePool 5 (.ofNat 14) (.ofNat 11) (103 * 10 ^ 7)]

def ringScan : Scan Double := ⟨ringPools, by decide, none, 0⟩

def ringCache : PoolStateCache := ringPools.foldl PoolStateCache.upsert PoolStateCache.new

def ringRoute : Option (RouteParams Double) :=
  cycleToRoute plainEnv.powf 0 (rebuild plainEnv ringScan).graph ringCache [1, 2, 3, 4] 1000000

theorem ringRoute_built : ∃ route, ringRoute = some route ∧ route.hops.length = 6 := by
  have long : ringRoute.map (fun route => route.hops.length) = some 6 := by decide +kernel
  exact Option.map_eq_some_iff.mp long

end Helios.RouteEngine
