import Helios.GraphRefresh
import Helios.PairIndex

/-! The graph after a scan against the graph of a full build from the same pools,
over every run of scans. -/

namespace Helios.RouteEngine

open Machine FloatArith

/-! Two graphs agree if they have the same tokens and the same priced edges. -/

def Agrees (held fresh : TokenGraph) : Prop :=
  held.graph.SameGraph fresh.graph ∧ candidateCycles held = candidateCycles fresh

theorem candidateCycles_of_same (held fresh : TokenGraph)
    (same : held.graph.SameGraph fresh.graph) :
    candidateCycles held = candidateCycles fresh := by
  have links := DiGraph.sameGraph_links held.graph fresh.graph same
  have tradable : Tradable held = Tradable fresh := by
    funext first second
    exact propext (exists_congr (fun edge => links first second edge))
  have negative : NegativeCycle held = NegativeCycle fresh := by
    funext tokens
    simp only [NegativeCycle, links]
  rw [candidateCycles, candidateCycles, tradable, negative]

theorem agrees_iff_same (held fresh : TokenGraph) :
    Agrees held fresh ↔ held.graph.SameGraph fresh.graph := by
  constructor
  · exact fun agrees => agrees.1
  · exact fun same => ⟨same, candidateCycles_of_same held fresh same⟩

namespace TokenGraph.Coherent

theorem nodup_nodes (tg : TokenGraph) (coherent : tg.Coherent) : tg.graph.nodes.Nodup := by
  rw [List.nodup_iff_getElem?_ne_getElem?]
  intro first second before inside same
  have found := List.getElem?_eq_getElem inside
  have late := (coherent.indexed _ second).mpr found
  rw [← same] at found
  have early := (coherent.indexed _ first).mpr found
  rw [early] at late
  cases late
  exact Nat.lt_irrefl _ before

theorem mem_nodes_iff (tg : TokenGraph) (coherent : tg.Coherent) (token : Pubkey) :
    token ∈ tg.graph.nodes ↔
      ∃ edge ∈ tg.graph.weights, token = edge.tokenIn ∨ token = edge.tokenOut := by
  constructor
  · exact coherent.touched token
  · intro ⟨weight, member, ends⟩
    rcases List.mem_map.mp member with ⟨edge, inside, rfl⟩
    rcases coherent.named edge inside with ⟨source, target⟩
    rcases ends with rfl | rfl
    · exact List.mem_of_getElem? source
    · exact List.mem_of_getElem? target

end TokenGraph.Coherent

/-- Between coherent graphs the edges decide: every token is an end of one. -/
theorem sameGraph_iff (left right : TokenGraph) (leftFits : left.Coherent)
    (rightFits : right.Coherent) :
    left.graph.SameGraph right.graph ↔ left.graph.weights.Perm right.graph.weights := by
  have labelled := DiGraph.labelled_perm_iff EdgeData.tokenIn EdgeData.tokenOut left.graph
    right.graph leftFits.named rightFits.named
  constructor
  · exact fun same => labelled.mp same.2
  · intro perm
    refine ⟨?_, labelled.mpr perm⟩
    rw [List.perm_ext_iff_of_nodup leftFits.nodup_nodes rightFits.nodup_nodes]
    intro token
    rw [leftFits.mem_nodes_iff, rightFits.mem_nodes_iff]
    exact exists_congr (fun edge => and_congr_left (fun _ => perm.mem_iff))

/-! What an update in place must meet. -/

/-- The swap whose price an update writes on an edge: a tenth of the polled reserve,
at most `10 ^ 8`, against the constant-product formula. -/
def inPlaceSwap (pool : DexPool) (edge : EdgeData) : Nat × Nat :=
  let reserveIn := if edge.tokenIn = pool.tokenA then pool.reserveA else pool.reserveB
  let reserveOut := if edge.tokenIn = pool.tokenA then pool.reserveB else pool.reserveA
  let amountIn := min 100000000 (reserveIn / 10)
  let netIn := amountIn - wrap 64 (amountIn * pool.feeBps) / 10000
  (amountIn, wrap 64 (reserveOut * netIn / (reserveIn + netIn)))

section

variable {F : Type} [FloatArith F] (env : Env F)

/-- A held edge stands for a direction the build offers now, and the swap priced in
place has the price of the quoted one. If the former pays nothing the held rate stays
and must have that price already. -/
structure Renewed (now : Instant) (pool : DexPool) (edge : EdgeData) (aToB : Bool) : Prop where
  dexProgram : edge.dexProgram = inferDexProgram pool
  tokenIn : edge.tokenIn = if aToB then pool.tokenA else pool.tokenB
  tokenOut : edge.tokenOut = if aToB then pool.tokenB else pool.tokenA
  feeBps : edge.feeBps = pool.feeBps
  priced : 0 < (inPlaceSwap pool edge).2 →
    (inPlaceSwap pool edge).2 * refAmount pool =
      quotedOut env now pool aToB * (inPlaceSwap pool edge).1
  unpriced : (inPlaceSwap pool edge).2 = 0 →
    edge.rate * refAmount pool = quotedOut env now pool aToB

def PersistentGraph.edgesOf (held : PersistentGraph) (address : Pubkey) : List EdgeData :=
  held.weights.filter (fun edge => decide (edge.pool = address))

/-- The held edges of each pool match, one to one, the directions it is offered in now,
and no edge is left of a pool that is gone. -/
structure Current (held : PersistentGraph) (scan : Scan F) : Prop where
  cached : ∀ edge ∈ held.weights, ∃ pool ∈ scan.pools, pool.poolAddress = edge.pool
  matched : ∀ pool ∈ scan.pools, ∃ edges, edges.Perm (held.edgesOf pool.poolAddress) ∧
    List.Forall₂ (Renewed env scan.now pool) edges (offered env scan pool)

theorem computeRate_eq (reserveIn reserveOut feeBps : Nat) :
    computeRate reserveIn reserveOut feeBps =
      (wrap 64 (reserveOut * (min 100000000 (reserveIn / 10) -
        wrap 64 (min 100000000 (reserveIn / 10) * feeBps) / 10000) /
        (reserveIn + (min 100000000 (reserveIn / 10) -
          wrap 64 (min 100000000 (reserveIn / 10) * feeBps) / 10000))) : ℚ) /
      (min 100000000 (reserveIn / 10) : Nat) := by
  rw [computeRate]
  by_cases zero : reserveIn = 0 ∨ reserveOut = 0
  · rw [if_pos zero]
    rcases zero with rfl | rfl
    · simp
    · simp [wrap]
  · rw [if_neg zero]
    by_cases tiny : min 100000000 (reserveIn / 10) = 0
    · simp [tiny]
    · simp only [if_neg tiny]
      split
      · rename_i nothing
        simp [nothing]
      · rfl

theorem refAmount_pos (pool : DexPool) : 0 < refAmount pool := by
  rw [refAmount]
  split
  · norm_num
  · split <;> norm_num

theorem inPlaceSwap_pos (pool : DexPool) (edge : EdgeData)
    (paid : 0 < (inPlaceSwap pool edge).2) : 0 < (inPlaceSwap pool edge).1 := by
  rcases Nat.eq_zero_or_pos (inPlaceSwap pool edge).1 with idle | given
  · simp only [inPlaceSwap] at idle paid
    rw [idle] at paid
    simp [wrap] at paid
  · exact given

/-- The rate an update writes: the price of the swap in place, if it pays. -/
theorem rate_renewEdge (pool : DexPool) (edge : EdgeData) :
    (renewEdge pool edge).rate =
      if 0 < (inPlaceSwap pool edge).2 then
        ((inPlaceSwap pool edge).2 : ℚ) / (inPlaceSwap pool edge).1
      else edge.rate := by
  have rate : (if edge.tokenIn = pool.tokenA then
      computeRate pool.reserveA pool.reserveB pool.feeBps
    else computeRate pool.reserveB pool.reserveA pool.feeBps) =
      ((inPlaceSwap pool edge).2 : ℚ) / (inPlaceSwap pool edge).1 := by
    by_cases forth : edge.tokenIn = pool.tokenA
    · rw [if_pos forth, computeRate_eq]
      simp only [inPlaceSwap, if_pos forth]
    · rw [if_neg forth, computeRate_eq]
      simp only [inPlaceSwap, if_neg forth]
  rw [renewEdge]
  simp only [rate]
  by_cases paid : 0 < (inPlaceSwap pool edge).2
  · have given := inPlaceSwap_pos pool edge paid
    have positive : (0 : ℚ) < ((inPlaceSwap pool edge).2 : ℚ) / (inPlaceSwap pool edge).1 :=
      div_pos (by exact_mod_cast paid) (by exact_mod_cast given)
    rw [if_pos paid, if_pos positive]
  · have nothing : (inPlaceSwap pool edge).2 = 0 := by omega
    rw [if_neg paid, nothing, Nat.cast_zero, zero_div, if_neg (lt_irrefl 0)]

theorem eq_iff_swap_rate (first second : EdgeData) :
    first = second ↔ first.swap = second.swap ∧ first.rate = second.rate := by
  constructor
  · rintro rfl
    exact ⟨rfl, rfl⟩
  · intro ⟨swaps, rates⟩
    cases first
    cases second
    simp only [EdgeData.swap, Prod.mk.injEq] at swaps
    simp only [EdgeData.mk.injEq]
    exact ⟨swaps.1, swaps.2.1, swaps.2.2.1, swaps.2.2.2.1, rates, swaps.2.2.2.2⟩

/-- A renewed edge is the quoted one exactly under the condition. -/
theorem renewEdge_eq_quoted_iff (now : Instant) (pool : DexPool) (edge : EdgeData) (aToB : Bool)
    (own : edge.pool = pool.poolAddress) :
    renewEdge pool edge = quotedEdge env now pool aToB ↔ Renewed env now pool edge aToB := by
  have reference : (refAmount pool : ℚ) ≠ 0 := by
    exact_mod_cast Nat.ne_of_gt (refAmount_pos pool)
  rw [eq_iff_swap_rate, swap_renewEdge, rate_renewEdge]
  have quotedRate : (quotedEdge env now pool aToB).rate =
      (quotedOut env now pool aToB : ℚ) / refAmount pool := rfl
  have quotedSwap : (quotedEdge env now pool aToB).swap =
      (pool.poolAddress, inferDexProgram pool, if aToB then pool.tokenA else pool.tokenB,
        if aToB then pool.tokenB else pool.tokenA, pool.feeBps) := rfl
  rw [quotedRate, quotedSwap]
  simp only [EdgeData.swap, Prod.mk.injEq]
  rcases Nat.eq_zero_or_pos (inPlaceSwap pool edge).2 with nothing | paid
  · rw [nothing, if_neg (lt_irrefl 0), eq_div_iff reference]
    constructor
    · intro ⟨⟨_, program, tokenIn, tokenOut, fee⟩, rate⟩
      exact ⟨program, tokenIn, tokenOut, fee, fun paid => absurd nothing (Nat.ne_of_gt paid),
        fun _ => rate⟩
    · intro renewed
      exact ⟨⟨own, renewed.dexProgram, renewed.tokenIn, renewed.tokenOut, renewed.feeBps⟩,
        renewed.unpriced nothing⟩
  · have given : ((inPlaceSwap pool edge).1 : ℚ) ≠ 0 := by
      exact_mod_cast Nat.ne_of_gt (inPlaceSwap_pos pool edge paid)
    rw [if_pos paid, div_eq_div_iff given reference]
    constructor
    · intro ⟨⟨_, program, tokenIn, tokenOut, fee⟩, rate⟩
      exact ⟨program, tokenIn, tokenOut, fee, fun _ => by exact_mod_cast rate,
        fun nothing => absurd nothing (Nat.ne_of_gt paid)⟩
    · intro renewed
      exact ⟨⟨own, renewed.dexProgram, renewed.tokenIn, renewed.tokenOut, renewed.feeBps⟩,
        by exact_mod_cast renewed.priced paid⟩

/-! One scan without a rebuild. -/

theorem class_freshEdges (scan : Scan F) (pool : DexPool) (member : pool ∈ scan.pools) :
    (rebuild env scan).edgesOf pool.poolAddress = freshEdges env scan pool := by
  have others : ∀ pools : List DexPool, pool.poolAddress ∉ pools.map DexPool.poolAddress →
      (pools.flatMap (freshEdges env scan)).filter
        (fun edge => decide (edge.pool = pool.poolAddress)) = [] := by
    intro pools absent
    rw [List.filter_eq_nil_iff]
    intro edge inside
    rcases List.mem_flatMap.mp inside with ⟨other, cached, offer⟩
    rw [pool_of_freshEdges env scan other edge offer]
    intro same
    apply absent
    rw [← of_decide_eq_true same]
    exact List.mem_map_of_mem cached
  have own : (freshEdges env scan pool).filter
      (fun edge => decide (edge.pool = pool.poolAddress)) = freshEdges env scan pool := by
    rw [List.filter_eq_self]
    exact fun edge offer => decide_eq_true (pool_of_freshEdges env scan pool edge offer)
  rcases List.append_of_mem member with ⟨before, after, split⟩
  have distinct := scan.distinct
  rw [split, List.map_append, List.map_cons] at distinct
  have apart := (List.nodup_middle.mp distinct)
  rw [List.nodup_cons, List.mem_append, not_or] at apart
  rw [PersistentGraph.edgesOf, weights_rebuild, split, List.flatMap_append, List.flatMap_cons,
    List.filter_append, List.filter_append, others before apart.1.1, others after apart.1.2, own,
    List.nil_append, List.append_nil]

theorem class_absent (scan : Scan F) (address : Pubkey)
    (absent : ∀ pool ∈ scan.pools, pool.poolAddress ≠ address) :
    (rebuild env scan).edgesOf address = [] := by
  rw [PersistentGraph.edgesOf, weights_rebuild, List.filter_eq_nil_iff]
  intro edge inside same
  rcases List.mem_flatMap.mp inside with ⟨pool, cached, offer⟩
  apply absent pool cached
  rw [← pool_of_freshEdges env scan pool edge offer]
  exact of_decide_eq_true same

omit [FloatArith F] in
theorem class_update (held : PersistentGraph) (scan : Scan F) (sound : held.Sound)
    (address : Pubkey) :
    (update held scan).edgesOf address =
      (held.edgesOf address).map (renewAll scan.pools) := by
  rw [PersistentGraph.edgesOf, weights_update held scan sound, List.filter_map]
  congr 1
  apply List.filter_congr
  intro edge _
  simp only [Function.comp, pool_renewAll]

/-- The offered pools have reserves. -/
theorem offered_of_zero (scan : Scan F) (pool : DexPool)
    (zero : pool.reserveA = 0 ∨ pool.reserveB = 0) : offered env scan pool = [] := by
  have dust : pool.reserveA < 10000000 ∨ pool.reserveB < 10000000 := by omega
  rw [offered, directions, if_pos dust]
  split <;> rfl

/-- The edges of one cached pool after the update are those of the build if and only if
they can be matched. -/
theorem class_perm_iff (held : PersistentGraph) (scan : Scan F) (sound : held.Sound)
    (pool : DexPool) (member : pool ∈ scan.pools) :
    ((update held scan).edgesOf pool.poolAddress).Perm
        ((rebuild env scan).edgesOf pool.poolAddress) ↔
      ∃ edges, edges.Perm (held.edgesOf pool.poolAddress) ∧
        List.Forall₂ (Renewed env scan.now pool) edges (offered env scan pool) := by
  have own : ∀ edge ∈ held.edgesOf pool.poolAddress, edge.pool = pool.poolAddress := by
    intro edge inside
    exact of_decide_eq_true (List.mem_filter.mp inside).2
  rw [class_update held scan sound, class_freshEdges env scan pool member, freshEdges]
  by_cases zero : pool.reserveA = 0 ∨ pool.reserveB = 0
  · rw [offered_of_zero env scan pool zero, List.map_nil, List.perm_nil, List.map_eq_nil_iff]
    constructor
    · intro idle
      exact ⟨[], by rw [idle], List.Forall₂.nil⟩
    · rintro ⟨edges, reordered, matched⟩
      cases matched
      exact List.nil_perm.mp reordered
  · have renewed : (held.edgesOf pool.poolAddress).map (renewAll scan.pools) =
        (held.edgesOf pool.poolAddress).map (renewEdge pool) := by
      apply List.map_congr_left
      intro edge inside
      rw [renewAll_own scan.pools scan.distinct pool member edge (own edge inside), renewFrom,
        if_pos (own edge inside), if_neg zero]
    rw [renewed, DiGraph.map_perm_map_iff_forall₂]
    apply exists_congr
    intro edges
    apply and_congr_right
    intro reordered
    apply DiGraph.forall₂_congr_left
    intro edge inside aToB
    exact renewEdge_eq_quoted_iff env scan.now pool edge aToB
      (own edge (reordered.mem_iff.mp inside))

theorem update_agrees_iff (held : PersistentGraph) (scan : Scan F) (sound : held.Sound) :
    Agrees (update held scan).graph (rebuild env scan).graph ↔ Current env held scan := by
  rw [agrees_iff_same, sameGraph_iff _ _ (sound_update held scan sound).coherent
    (sound_rebuild env scan).coherent, DiGraph.perm_iff_classes EdgeData.pool]
  constructor
  · intro classes
    refine ⟨?_, ?_⟩
    · intro edge inside
      by_contra gone
      have absent : ∀ pool ∈ scan.pools, pool.poolAddress ≠ edge.pool :=
        fun pool cached same => gone ⟨pool, cached, same⟩
      have perm : ((update held scan).edgesOf edge.pool).Perm
          ((rebuild env scan).edgesOf edge.pool) := classes edge.pool
      rw [class_absent env scan edge.pool absent, class_update held scan sound,
        List.perm_nil, List.map_eq_nil_iff] at perm
      have kept : edge ∈ held.edgesOf edge.pool :=
        List.mem_filter.mpr ⟨inside, decide_eq_true rfl⟩
      rw [perm] at kept
      cases kept
    · intro pool cached
      exact (class_perm_iff env held scan sound pool cached).mp (classes pool.poolAddress)
  · intro current address
    by_cases known : ∃ pool ∈ scan.pools, pool.poolAddress = address
    · rcases known with ⟨pool, cached, rfl⟩
      exact (class_perm_iff env held scan sound pool cached).mpr (current.matched pool cached)
    · have absent : ∀ pool ∈ scan.pools, pool.poolAddress ≠ address :=
        fun pool cached same => known ⟨pool, cached, same⟩
      have idle : held.edgesOf address = [] := by
        rw [PersistentGraph.edgesOf, List.filter_eq_nil_iff]
        intro edge inside same
        rcases current.cached edge inside with ⟨pool, cached, here⟩
        exact absent pool cached (here.trans (of_decide_eq_true same))
      show ((update held scan).edgesOf address).Perm ((rebuild env scan).edgesOf address)
      rw [class_update held scan sound, idle, class_absent env scan address absent]
      exact List.Perm.nil

/-! Runs of scans, from an engine that holds no graph. -/

theorem sound_of_trace (scans : List (Scan F)) :
    ∀ pair ∈ Runs.trace (scanStep env) none scans, ∀ held, pair.1 = some held → held.Sound := by
  apply Runs.trace_invariant (scanStep env)
    (fun state => ∀ held, state = some held → held.Sound)
  · intro held absurd
    cases absurd
  · intro pair _ before held same
    cases same
    exact sound_scanGraph env pair.1 pair.2 before

/-- After every scan of a run the graph is that of a full build from the same pools, with
the same candidate cycles, if and only if every scan that does not rebuild finds its
edges current. -/
theorem scans_agree_iff (scans : List (Scan F)) :
    (∀ pair ∈ Runs.trace (scanStep env) none scans,
      Agrees (scanGraph env pair.1 pair.2).graph (rebuild env pair.2).graph) ↔
    ∀ pair ∈ Runs.trace (scanStep env) none scans, ∀ held, pair.1 = some held →
      needRebuild pair.1 pair.2 = false → Current env held pair.2 := by
  apply forall_congr'
  intro pair
  apply forall_congr'
  intro inside
  have sound := sound_of_trace env scans pair inside
  have rebuilt : Agrees (rebuild env pair.2).graph (rebuild env pair.2).graph :=
    (agrees_iff_same _ _).mpr ⟨List.Perm.refl _, List.Perm.refl _⟩
  cases state : pair.1 with
  | none =>
      constructor
      · intro _ held absurd
        cases absurd
      · exact fun _ => rebuilt
  | some held =>
      have step := update_agrees_iff env held pair.2 (sound held state)
      by_cases again : needRebuild (some held) pair.2 = true
      · rw [scanGraph, if_pos again]
        constructor
        · intro _ other _ idle
          rw [again] at idle
          cases idle
        · exact fun _ => rebuilt
      · rw [scanGraph, if_neg again, step]
        constructor
        · intro current other same _
          cases same
          exact current
        · exact fun current => current held rfl (Bool.eq_false_iff.mpr again)

/-! Which edges stay current. -/

/-- For an amount of `10 ^ 8` the two formulas agree: their fees round alike. -/
theorem inPlace_eq_xyKQuote (reserveIn reserveOut feeBps : Nat) (fee : feeBps ≤ 10000)
    (inSmall : reserveIn < 2 ^ 64) (outSmall : reserveOut < 2 ^ 64) :
    wrap 64 (reserveOut * (100000000 - wrap 64 (100000000 * feeBps) / 10000) /
        (reserveIn + (100000000 - wrap 64 (100000000 * feeBps) / 10000))) =
      DexPool.xyKQuote reserveIn reserveOut feeBps 100000000 := by
  have charged : wrap 64 (100000000 * feeBps) / 10000 = 10000 * feeBps := by
    rw [wrap_of_lt 64 _ (by omega)]
    omega
  have net : 100000000 * (10000 - feeBps) = 10000 * (100000000 - 10000 * feeBps) := by omega
  rw [charged, DexPool.xyKQuote_eq reserveIn reserveOut feeBps 100000000 fee inSmall outSmall
    (by norm_num) (by omega), net]
  have scaled : 10000 * (100000000 - 10000 * feeBps) * reserveOut /
      (reserveIn * 10000 + 10000 * (100000000 - 10000 * feeBps)) =
      reserveOut * (100000000 - 10000 * feeBps) /
        (reserveIn + (100000000 - 10000 * feeBps)) := by
    rw [Nat.mul_comm reserveIn, ← Nat.mul_add, Nat.mul_assoc,
      Nat.mul_div_mul_left _ _ (by norm_num), Nat.mul_comm reserveOut]
  rw [scaled]
  apply wrap_of_lt
  apply lt_of_le_of_lt _ outSmall
  apply Nat.div_le_of_le_mul
  rw [Nat.mul_comm]
  exact Nat.mul_le_mul_right reserveOut (Nat.le_add_left _ _)

/-- A constant-product pool with both reserves from `10 ^ 9` on, that is not between two
stablecoins and whose quotes read the polled reserves, keeps its edges current as long as
it is offered in their direction under the same tokens, program and fee. -/
theorem renewed_of_plain (now : Instant) (pool : DexPool) (edge : EdgeData) (aToB : Bool)
    (plain : pool.IsXyK) (tokens : pool.tokenA ≠ pool.tokenB)
    (mixed : (isStablecoinMint pool.tokenA && isStablecoinMint pool.tokenB) = false)
    (fee : pool.feeBps ≤ 10000)
    (polled : pool.effectiveReserves now = (pool.reserveA, pool.reserveB))
    (deep : 1000000000 ≤ pool.reserveA ∧ 1000000000 ≤ pool.reserveB)
    (bounded : pool.reserveA < 2 ^ 64 ∧ pool.reserveB < 2 ^ 64)
    (quoted : 0 < quotedOut env now pool aToB)
    (same : edge.swap = (quotedEdge env now pool aToB).swap) :
    Renewed env now pool edge aToB := by
  simp only [EdgeData.swap, Prod.mk.injEq] at same
  rcases same with ⟨_, program, tokenIn, tokenOut, feeBps⟩
  have reference : refAmount pool = 100000000 := by
    rw [refAmount, mixed]
    simp
  have amounts : (inPlaceSwap pool edge).1 = 100000000 ∧
      (inPlaceSwap pool edge).2 = quotedOut env now pool aToB := by
    have quote : quotedOut env now pool aToB =
        if aToB then DexPool.xyKQuote pool.reserveA pool.reserveB pool.feeBps 100000000
        else DexPool.xyKQuote pool.reserveB pool.reserveA pool.feeBps 100000000 := by
      have stocked : ¬(pool.reserveA = 0 ∨ pool.reserveB = 0) := by omega
      simp only [quotedOut, reference, DexPool.quote, polled, if_neg stocked, plain.1, plain.2]
    rw [quote]
    cases aToB with
    | true =>
        have forth : edge.tokenIn = pool.tokenA := tokenIn
        have tenth : min 100000000 (pool.reserveA / 10) = 100000000 := by omega
        simp only [inPlaceSwap, if_pos forth, tenth, if_true]
        exact ⟨trivial, inPlace_eq_xyKQuote _ _ _ fee bounded.1 bounded.2⟩
    | false =>
        have back : edge.tokenIn ≠ pool.tokenA := by
          rw [tokenIn]
          exact Ne.symm tokens
        have tenth : min 100000000 (pool.reserveB / 10) = 100000000 := by omega
        simp only [inPlaceSwap, if_neg back, tenth, Bool.false_eq_true, if_false]
        exact ⟨trivial, inPlace_eq_xyKQuote _ _ _ fee bounded.2 bounded.1⟩
  refine ⟨program, tokenIn, tokenOut, feeBps, ?_, ?_⟩
  · intro _
    rw [amounts.1, amounts.2, reference]
  · intro nothing
    rw [amounts.2] at nothing
    exact absurd nothing (Nat.ne_of_gt quoted)

/-- A pool that has left the build's filters, for example with a reserve that dropped to
zero, and still has held edges: they survive the update. -/
theorem dropped_pool_disagrees (held : PersistentGraph) (scan : Scan F) (sound : held.Sound)
    (pool : DexPool) (member : pool ∈ scan.pools) (dropped : offered env scan pool = [])
    (stale : held.edgesOf pool.poolAddress ≠ []) :
    ¬ Agrees (update held scan).graph (rebuild env scan).graph := by
  rw [update_agrees_iff env held scan sound]
  intro current
  rcases current.matched pool member with ⟨edges, reordered, matched⟩
  rw [dropped] at matched
  cases matched
  exact stale (List.nil_perm.mp reordered)

/-- The pools of a cache that was filled through its operations are what a scan asks for. -/
theorem distinct_cached (ops : List PairIndex.CacheOp) :
    ((HashMap.values (Runs.run (PairIndex.applyOp env.powf) PoolStateCache.new ops).inner).map
      DexPool.poolAddress).Nodup := by
  have coherent := PairIndex.coherent_run env.powf ops ops (fun _ member => member)
  apply List.Nodup.map_on
  · intro first firstIn second secondIn same
    rcases (HashMap.mem_values _ first).mp firstIn with ⟨firstKey, firstFound⟩
    rcases (HashMap.mem_values _ second).mp secondIn with ⟨secondKey, secondFound⟩
    have firstOwn := (coherent.cached firstKey first firstFound).1
    have secondOwn := (coherent.cached secondKey second secondFound).1
    have keys : firstKey = secondKey := firstOwn.symm.trans (same.trans secondOwn)
    rw [keys, secondFound] at firstFound
    cases firstFound
    rfl
  · exact HashMap.nodup_values _ DexPool.poolAddress
      (fun key pool found => ((coherent.cached key pool found).1).symm)

end

/-! A pool between the two stablecoins, scanned twice with the same reserves: the build
quotes a tenth of a coin, the update prices a hundred. -/

def stablePool : DexPool :=
  { poolAddress := .ofNat 1, dexType := .pumpSwap, tokenA := usdc, tokenB := usdt
    decimalsA := 6, decimalsB := 6, reserveA := 10 ^ 12, reserveB := 10 ^ 12
    reserveAOptimistic := 0, reserveBOptimistic := 0, lastShredUpdate := 0
    poolVaultABalance := 0, poolVaultBBalance := 0, marketVaultABalance := 0
    marketVaultBBalance := 0, lastUpdated := 0, feeBps := 25
    raydiumMeta := none, orcaMeta := none, meteoraMeta := none }

/-- No listed pools; the pool's quotes use no powers. -/
def plainEnv : Env Double := ⟨fun base _ => base, fun base _ => base, []⟩

def stableScan : Scan Double := ⟨[stablePool], List.nodup_singleton _, none, 0⟩

theorem second_scan_disagrees :
    ¬ ∀ pair ∈ Runs.trace (scanStep plainEnv) none [stableScan, stableScan],
      Agrees (scanGraph plainEnv pair.1 pair.2).graph (rebuild plainEnv pair.2).graph := by
  intro agree
  have second : (some (rebuild plainEnv stableScan), stableScan) ∈
      Runs.trace (scanStep plainEnv) none [stableScan, stableScan] :=
    List.mem_cons_of_mem _ List.mem_cons_self
  have same := agree _ second
  dsimp only at same
  have differ : ¬ (scanGraph plainEnv (some (rebuild plainEnv stableScan))
      stableScan).graph.graph.SameGraph (rebuild plainEnv stableScan).graph.graph := by
    decide +kernel
  exact differ same.1

end Helios.RouteEngine
