import Helios.RouteEngine
import Helios.Runs

/-! When a scan leaves the graph that a full build from the same pools gives. -/

namespace Helios.RouteEngine

open Machine FloatArith

variable {F : Type} [FloatArith F] (env : Env F)

/-! What the full build adds for a pool. -/

def quotedOut (now : Instant) (pool : DexPool) (aToB : Bool) : Nat :=
  pool.quote env.powf now aToB (refAmount pool)

def quotedEdge (now : Instant) (pool : DexPool) (aToB : Bool) : EdgeData :=
  { pool := pool.poolAddress
    dexProgram := inferDexProgram pool
    tokenIn := if aToB then pool.tokenA else pool.tokenB
    tokenOut := if aToB then pool.tokenB else pool.tokenA
    rate := quotedOut env now pool aToB / refAmount pool
    feeBps := pool.feeBps }

def allowed (pool : DexPool) (aToB : Bool) : Bool :=
  if aToB then (allowedDirections pool).1 else (allowedDirections pool).2

/-- The directions that `add_edge` lets through. -/
def directions (now : Instant) (pool : DexPool) : List Bool :=
  if pool.reserveA < 10000000 ∨ pool.reserveB < 10000000 then []
  else if pool.poolAddress ∈ blacklist env then []
  else [true, false].filter
    (fun aToB => allowed pool aToB && decide (0 < quotedOut env now pool aToB))

/-- The directions in which a build uses a pool. -/
def offered (scan : Scan F) (pool : DexPool) : List Bool :=
  if poolIsEligible env pool scan.oraclePrices then directions env scan.now pool else []

def freshEdges (scan : Scan F) (pool : DexPool) : List EdgeData :=
  (offered env scan pool).map (quotedEdge env scan.now pool)

/-! The node index and the edges of a token graph fit. -/

structure TokenGraph.Coherent (tg : TokenGraph) : Prop where
  indexed : ∀ token place, HashMap.get tg.nodeMap token = some place ↔
    tg.graph.nodes[place]? = some token
  named : tg.graph.Named EdgeData.tokenIn EdgeData.tokenOut
  touched : ∀ token ∈ tg.graph.nodes, ∃ edge ∈ tg.graph.weights,
    token = edge.tokenIn ∨ token = edge.tokenOut

theorem coherent_new : TokenGraph.new.Coherent := by
  refine ⟨?_, DiGraph.named_empty _ _, ?_⟩
  · intro token place
    simp [TokenGraph.new, DiGraph.empty]
  · intro token member
    cases member

/-- What a node lookup keeps, and what it finds. -/
structure Inserted (tg after : TokenGraph) (token : Pubkey) (idx : Nat) : Prop where
  indexed : ∀ other place, HashMap.get after.nodeMap other = some place ↔
    after.graph.nodes[place]? = some other
  named : after.graph.Named EdgeData.tokenIn EdgeData.tokenOut
  sameEdges : after.graph.edges = tg.graph.edges
  keeps : ∀ (place : Nat) (other : Pubkey), tg.graph.nodes[place]? = some other →
    after.graph.nodes[place]? = some other
  found : after.graph.nodes[idx]? = some token
  members : ∀ other ∈ after.graph.nodes, other ∈ tg.graph.nodes ∨ other = token

theorem getOrInsertNode_spec (tg : TokenGraph) (token : Pubkey)
    (indexed : ∀ other place, HashMap.get tg.nodeMap other = some place ↔
      tg.graph.nodes[place]? = some other)
    (named : tg.graph.Named EdgeData.tokenIn EdgeData.tokenOut) :
    Inserted tg (tg.getOrInsertNode token).1 token (tg.getOrInsertNode token).2 := by
  rw [TokenGraph.getOrInsertNode]
  cases held : HashMap.get tg.nodeMap token with
  | some idx =>
      exact ⟨indexed, named, rfl, fun _ _ found => found, (indexed token idx).mp held,
        fun _ member => Or.inl member⟩
  | none =>
      have absent : ∀ place : Nat, tg.graph.nodes[place]? ≠ some token := by
        intro place found
        rw [(indexed token place).mpr found] at held
        cases held
      refine ⟨?_, DiGraph.named_addNode _ _ _ _ named, rfl, ?_, ?_, ?_⟩
      · intro other place
        show HashMap.get (tg.nodeMap.insert token tg.graph.nodes.length) other = some place ↔
          (tg.graph.addNode token).1.nodes[place]? = some other
        rw [DiGraph.getElem?_addNode]
        by_cases same : other = token
        · subst same
          rw [HashMap.get_insert]
          by_cases new : place = tg.graph.nodes.length
          · simp [new]
          · simp [new, absent, Ne.symm new]
        · rw [HashMap.get_insert_ne _ _ _ _ same, indexed]
          by_cases new : place = tg.graph.nodes.length
          · simp [new, Ne.symm same]
          · rw [if_neg new]
      · intro place other found
        show (tg.graph.addNode token).1.nodes[place]? = some other
        have early := (List.getElem?_eq_some_iff.mp found).1
        rw [DiGraph.getElem?_addNode, if_neg (Nat.ne_of_lt early)]
        exact found
      · show (tg.graph.addNode token).1.nodes[tg.graph.nodes.length]? = some token
        rw [DiGraph.getElem?_addNode, if_pos rfl]
      · intro other member
        rcases List.mem_append.mp member with old | fresh
        · exact Or.inl old
        · exact Or.inr (List.mem_singleton.mp fresh)

/-- An edge between two nodes that were just looked up. -/
theorem link_spec (tg found : TokenGraph) (source target : Nat) (edge : EdgeData)
    (coherent : tg.Coherent)
    (indexed : ∀ other place, HashMap.get found.nodeMap other = some place ↔
      found.graph.nodes[place]? = some other)
    (named : found.graph.Named EdgeData.tokenIn EdgeData.tokenOut)
    (sameEdges : found.graph.edges = tg.graph.edges)
    (members : ∀ token ∈ found.graph.nodes, token ∈ tg.graph.nodes ∨ token = edge.tokenIn ∨
      token = edge.tokenOut)
    (here : found.graph.nodes[source]? = some edge.tokenIn)
    (there : found.graph.nodes[target]? = some edge.tokenOut) :
    TokenGraph.Coherent ⟨found.graph.addEdge source target edge, found.nodeMap⟩ ∧
      DiGraph.Extends tg.graph (found.graph.addEdge source target edge) [edge] := by
  have extended : DiGraph.Extends tg.graph (found.graph.addEdge source target edge) [edge] :=
    ⟨[⟨source, target, edge⟩], by rw [DiGraph.addEdge, sameEdges], rfl⟩
  have grown := DiGraph.weights_extends _ _ _ extended
  refine ⟨⟨indexed, DiGraph.named_addEdge _ _ _ _ _ _ named here there, ?_⟩, extended⟩
  intro token member
  show ∃ other ∈ (found.graph.addEdge source target edge).weights,
    token = other.tokenIn ∨ token = other.tokenOut
  rw [grown]
  rcases members token member with old | fresh
  · rcases coherent.touched token old with ⟨other, inside, ends⟩
    exact ⟨other, List.mem_append_left _ inside, ends⟩
  · exact ⟨edge, List.mem_append_right _ List.mem_cons_self, fresh⟩

/-- Half of `add_edge`: the quoted edge if there is a quote. -/
theorem addDirection_spec (tg : TokenGraph) (now : Instant) (pool : DexPool) (aToB : Bool)
    (coherent : tg.Coherent) :
    (tg.addDirection env now pool aToB).Coherent ∧
      DiGraph.Extends tg.graph (tg.addDirection env now pool aToB).graph
        (if 0 < quotedOut env now pool aToB then [quotedEdge env now pool aToB] else []) := by
  by_cases quoted : 0 < quotedOut env now pool aToB
  · have first := getOrInsertNode_spec tg pool.tokenA coherent.indexed coherent.named
    have second := getOrInsertNode_spec (tg.getOrInsertNode pool.tokenA).1 pool.tokenB
      first.indexed first.named
    have aFound := second.keeps _ _ first.found
    have members : ∀ token ∈
        ((tg.getOrInsertNode pool.tokenA).1.getOrInsertNode pool.tokenB).1.graph.nodes,
        token ∈ tg.graph.nodes ∨ token = pool.tokenA ∨ token = pool.tokenB := by
      intro token member
      rcases second.members token member with old | fresh
      · exact (first.members token old).imp_right Or.inl
      · exact Or.inr (Or.inr fresh)
    rw [if_pos quoted, TokenGraph.addDirection]
    simp only [quotedOut] at quoted
    rw [if_pos quoted]
    cases aToB with
    | true =>
        exact link_spec tg _ _ _ (quotedEdge env now pool true) coherent second.indexed
          second.named (second.sameEdges.trans first.sameEdges) members aFound second.found
    | false =>
        exact link_spec tg _ _ _ (quotedEdge env now pool false) coherent second.indexed
          second.named (second.sameEdges.trans first.sameEdges)
          (fun token member => (members token member).imp_right Or.symm) second.found aFound
  · have unchanged : tg.addDirection env now pool aToB = tg := if_neg quoted
    rw [unchanged, if_neg quoted]
    exact ⟨coherent, DiGraph.extends_refl _⟩

/-- A direction that is not allowed adds nothing, one that is adds its quoted edge. -/
theorem optDirection_spec (tg : TokenGraph) (now : Instant) (pool : DexPool) (aToB : Bool)
    (coherent : tg.Coherent) :
    (if allowed pool aToB then tg.addDirection env now pool aToB else tg).Coherent ∧
      DiGraph.Extends tg.graph
        (if allowed pool aToB then tg.addDirection env now pool aToB else tg).graph
        (([aToB].filter (fun aToB => allowed pool aToB &&
          decide (0 < quotedOut env now pool aToB))).map (quotedEdge env now pool)) := by
  by_cases open' : allowed pool aToB = true
  · have added := addDirection_spec env tg now pool aToB coherent
    rw [if_pos open']
    by_cases quoted : 0 < quotedOut env now pool aToB
    · simpa [open', quoted] using added
    · simpa [open', quoted] using added
  · rw [if_neg open']
    simpa [open'] using And.intro coherent (DiGraph.extends_refl tg.graph)

/-- `add_edge` adds the quoted edges of the directions it lets through. -/
theorem addEdge_spec (tg : TokenGraph) (now : Instant) (pool : DexPool)
    (coherent : tg.Coherent) :
    (tg.addEdge env now pool).Coherent ∧
      DiGraph.Extends tg.graph (tg.addEdge env now pool).graph
        ((directions env now pool).map (quotedEdge env now pool)) := by
  rw [TokenGraph.addEdge, directions]
  by_cases dust : pool.reserveA < 10000000 ∨ pool.reserveB < 10000000
  · rw [if_pos dust, if_pos dust]
    exact ⟨coherent, DiGraph.extends_refl _⟩
  · rw [if_neg dust, if_neg dust]
    by_cases listed : pool.poolAddress ∈ blacklist env
    · rw [if_pos listed, if_pos listed]
      exact ⟨coherent, DiGraph.extends_refl _⟩
    · rw [if_neg listed, if_neg listed]
      have forth := optDirection_spec env tg now pool true coherent
      have back := optDirection_spec env _ now pool false forth.1
      have split : [true, false] = [true] ++ [false] := rfl
      rw [split, List.filter_append, List.map_append]
      exact ⟨back.1, DiGraph.extends_trans _ _ _ _ _ forth.2 back.2⟩

/-! The build loop: after some pools, the graph holds their quoted edges. -/

theorem pool_of_freshEdges (scan : Scan F) (pool : DexPool) :
    ∀ edge ∈ freshEdges env scan pool, edge.pool = pool.poolAddress := by
  intro edge member
  rcases List.mem_map.mp member with ⟨aToB, _, rfl⟩
  rfl

structure Built (scan : Scan F) (pools : List DexPool)
    (built : TokenGraph × HashMap Pubkey (List Nat)) : Prop where
  coherent : built.1.Coherent
  weights : built.1.graph.weights = pools.flatMap (freshEdges env scan)
  tracks : ∀ address, built.1.graph.Tracks EdgeData.pool address
    ((HashMap.get built.2 address).getD [])

theorem built_new (scan : Scan F) : Built env scan [] (TokenGraph.new, HashMap.empty) := by
  refine ⟨coherent_new, rfl, ?_⟩
  intro address
  rw [HashMap.get_empty]
  refine ⟨List.nodup_nil, ?_⟩
  intro place
  simp [TokenGraph.new, DiGraph.empty]

theorem addPool_spec (scan : Scan F) (pools : List DexPool)
    (built : TokenGraph × HashMap Pubkey (List Nat)) (pool : DexPool)
    (sofar : Built env scan pools built) (fresh : pool.poolAddress ∉ pools.map DexPool.poolAddress) :
    Built env scan (pools ++ [pool]) (addPool env scan built pool) := by
  have appended : (pools ++ [pool]).flatMap (freshEdges env scan) =
      built.1.graph.weights ++ freshEdges env scan pool := by
    rw [List.flatMap_append, List.flatMap_singleton, sofar.weights]
  rw [addPool]
  by_cases eligible : poolIsEligible env pool scan.oraclePrices = true
  · have offers : freshEdges env scan pool =
        (directions env scan.now pool).map (quotedEdge env scan.now pool) := by
      rw [freshEdges, offered, if_pos eligible]
    rcases addEdge_spec env built.1 scan.now pool sofar.coherent with ⟨coherent, extended⟩
    rw [← offers] at extended
    have grown := DiGraph.weights_extends _ _ _ extended
    have counted := DiGraph.edgeCount_extends _ _ _ extended
    have absent : ∀ edge ∈ built.1.graph.weights, edge.pool ≠ pool.poolAddress := by
      intro edge member same
      rw [sofar.weights] at member
      rcases List.mem_flatMap.mp member with ⟨other, inside, offer⟩
      apply fresh
      rw [← same, pool_of_freshEdges env scan other edge offer]
      exact List.mem_map_of_mem inside
    have others : ∀ address, address ≠ pool.poolAddress →
        (built.1.addEdge env scan.now pool).graph.Tracks EdgeData.pool address
          ((HashMap.get built.2 address).getD []) := by
      intro address different
      apply DiGraph.tracks_extends_other _ _ _ _ _ _ extended _ (sofar.tracks address)
      intro edge offer
      rw [pool_of_freshEdges env scan pool edge offer]
      exact Ne.symm different
    have here := DiGraph.tracks_extends_fresh EdgeData.pool _ _ _ pool.poolAddress extended absent
      (pool_of_freshEdges env scan pool)
    simp only [eligible, Bool.not_true, Bool.false_eq_true, if_false]
    by_cases more : built.1.graph.edgeCount < (built.1.addEdge env scan.now pool).graph.edgeCount
    · rw [if_pos more]
      refine ⟨coherent, grown.trans appended.symm, ?_⟩
      intro address
      by_cases same : address = pool.poolAddress
      · rw [same, HashMap.get_insert, counted, Nat.add_sub_cancel_left]
        exact here
      · rw [HashMap.get_insert_ne _ _ _ _ same]
        exact others address same
    · rw [if_neg more]
      refine ⟨coherent, grown.trans appended.symm, ?_⟩
      intro address
      by_cases same : address = pool.poolAddress
      · -- No edge was added, so that the old entry of this address stays exact.
        have silent : freshEdges env scan pool = [] := by
          apply List.eq_nil_of_length_eq_zero
          omega
        apply DiGraph.tracks_extends_other _ _ _ _ _ _ extended _ (sofar.tracks address)
        rw [silent]
        intro edge offer
        cases offer
      · exact others address same
  · have ineligible : poolIsEligible env pool scan.oraclePrices = false :=
      Bool.eq_false_iff.mpr eligible
    simp only [ineligible, Bool.not_false, if_true]
    have silent : freshEdges env scan pool = [] := by
      rw [freshEdges, offered, if_neg eligible, List.map_nil]
    refine ⟨sofar.coherent, ?_, sofar.tracks⟩
    rw [appended, silent, List.append_nil]

theorem built_foldl (scan : Scan F) (pools rest : List DexPool)
    (built : TokenGraph × HashMap Pubkey (List Nat)) (sofar : Built env scan pools built)
    (distinct : ((pools ++ rest).map DexPool.poolAddress).Nodup) :
    Built env scan (pools ++ rest) (rest.foldl (addPool env scan) built) := by
  induction rest generalizing pools built with
  | nil =>
      rw [List.append_nil]
      exact sofar
  | cons pool rest ih =>
      have split : pools ++ pool :: rest = (pools ++ [pool]) ++ rest := by simp
      rw [split] at distinct ⊢
      have fresh : pool.poolAddress ∉ pools.map DexPool.poolAddress := by
        intro member
        rw [List.map_append, List.map_append] at distinct
        have before := (List.nodup_append.mp distinct).1
        exact (List.nodup_append.mp before).2.2 _ member _ List.mem_cons_self rfl
      exact ih (pools ++ [pool]) _ (addPool_spec env scan pools built pool sofar fresh) distinct

theorem rebuild_spec (scan : Scan F) :
    Built env scan scan.pools ((rebuild env scan).graph, (rebuild env scan).poolEdges) :=
  built_foldl env scan [] scan.pools _ (built_new env scan) scan.distinct

/-! The update in place: every edge is renewed by its own pool. -/

structure PersistentGraph.Sound (held : PersistentGraph) : Prop where
  coherent : held.graph.Coherent
  tracks : ∀ address, held.graph.graph.Tracks EdgeData.pool address
    ((HashMap.get held.poolEdges address).getD [])

def PersistentGraph.weights (held : PersistentGraph) : List EdgeData := held.graph.graph.weights

theorem sound_rebuild (scan : Scan F) : (rebuild env scan).Sound :=
  ⟨(rebuild_spec env scan).coherent, (rebuild_spec env scan).tracks⟩

theorem weights_rebuild (scan : Scan F) :
    (rebuild env scan).weights = scan.pools.flatMap (freshEdges env scan) :=
  (rebuild_spec env scan).weights

/-- A pool renews its edges unless a reserve is zero. -/
def renewFrom (pool : DexPool) (edge : EdgeData) : EdgeData :=
  if edge.pool = pool.poolAddress then
    if pool.reserveA = 0 ∨ pool.reserveB = 0 then edge else renewEdge pool edge
  else edge

def renewAll (pools : List DexPool) (edge : EdgeData) : EdgeData :=
  pools.foldl (fun edge pool => renewFrom pool edge) edge

/-- What an edge says apart from its rate. -/
def EdgeData.swap (edge : EdgeData) : Pubkey × Pubkey × Pubkey × Pubkey × Nat :=
  (edge.pool, edge.dexProgram, edge.tokenIn, edge.tokenOut, edge.feeBps)

theorem swap_renewEdge (pool : DexPool) (edge : EdgeData) :
    (renewEdge pool edge).swap = edge.swap := by
  rw [renewEdge]
  by_cases forth : edge.tokenIn = pool.tokenA
  · simp only [if_pos forth]
    by_cases priced : 0 < computeRate pool.reserveA pool.reserveB pool.feeBps
    · rw [if_pos priced]
      rfl
    · rw [if_neg priced]
  · simp only [if_neg forth]
    by_cases priced : 0 < computeRate pool.reserveB pool.reserveA pool.feeBps
    · rw [if_pos priced]
      rfl
    · rw [if_neg priced]

theorem swap_renewFrom (pool : DexPool) (edge : EdgeData) :
    (renewFrom pool edge).swap = edge.swap := by
  rw [renewFrom]
  by_cases own : edge.pool = pool.poolAddress
  · rw [if_pos own]
    by_cases zero : pool.reserveA = 0 ∨ pool.reserveB = 0
    · rw [if_pos zero]
    · rw [if_neg zero, swap_renewEdge]
  · rw [if_neg own]

theorem swap_renewAll (pools : List DexPool) (edge : EdgeData) :
    (renewAll pools edge).swap = edge.swap := by
  induction pools generalizing edge with
  | nil => rfl
  | cons pool rest ih => exact (ih (renewFrom pool edge)).trans (swap_renewFrom pool edge)

theorem pool_renewAll (pools : List DexPool) (edge : EdgeData) :
    (renewAll pools edge).pool = edge.pool :=
  congrArg (fun swap => swap.1) (swap_renewAll pools edge)

theorem tokenIn_renewAll (pools : List DexPool) (edge : EdgeData) :
    (renewAll pools edge).tokenIn = edge.tokenIn :=
  congrArg (fun swap => swap.2.2.1) (swap_renewAll pools edge)

theorem tokenOut_renewAll (pools : List DexPool) (edge : EdgeData) :
    (renewAll pools edge).tokenOut = edge.tokenOut :=
  congrArg (fun swap => swap.2.2.2.1) (swap_renewAll pools edge)

theorem renewAll_other (pools : List DexPool) (edge : EdgeData)
    (absent : edge.pool ∉ pools.map DexPool.poolAddress) : renewAll pools edge = edge := by
  induction pools with
  | nil => rfl
  | cons pool rest ih =>
      rw [List.map_cons, List.mem_cons, not_or] at absent
      have passed : renewFrom pool edge = edge := if_neg absent.1
      rw [renewAll, List.foldl_cons, passed]
      exact ih absent.2

/-- Of distinct pools only the edge's own renews it. -/
theorem renewAll_own (pools : List DexPool) (distinct : (pools.map DexPool.poolAddress).Nodup)
    (pool : DexPool) (member : pool ∈ pools) (edge : EdgeData)
    (own : edge.pool = pool.poolAddress) : renewAll pools edge = renewFrom pool edge := by
  induction pools with
  | nil => cases member
  | cons first rest ih =>
      rw [List.map_cons, List.nodup_cons] at distinct
      rw [renewAll, List.foldl_cons, ← renewAll]
      rcases List.mem_cons.mp member with same | later
      · subst same
        have kept : (renewFrom pool edge).pool = pool.poolAddress :=
          (congrArg (fun swap => swap.1) (swap_renewFrom pool edge)).trans own
        apply renewAll_other
        rw [kept]
        exact distinct.1
      · have passed : renewFrom first edge = edge := by
          apply if_neg
          intro same
          apply distinct.1
          rw [← same, own]
          exact List.mem_map_of_mem later
        rw [passed]
        exact ih distinct.2 later

theorem tracks_mapWeights_renew (graph : DiGraph Pubkey EdgeData) (address : Pubkey)
    (indices : List Nat) (pool : DexPool) (tracks : graph.Tracks EdgeData.pool address indices) :
    (graph.mapWeights (renewFrom pool)).Tracks EdgeData.pool address indices :=
  DiGraph.tracks_mapWeights EdgeData.pool graph address indices tracks _
    (fun edge => congrArg (fun swap => swap.1) (swap_renewFrom pool edge))

theorem updatePool_spec (poolEdges : HashMap Pubkey (List Nat)) (graph : DiGraph Pubkey EdgeData)
    (pool : DexPool) (tracks : graph.Tracks EdgeData.pool pool.poolAddress
      ((HashMap.get poolEdges pool.poolAddress).getD [])) :
    updatePool poolEdges graph pool = graph.mapWeights (renewFrom pool) := by
  rw [updatePool]
  by_cases zero : pool.reserveA = 0 ∨ pool.reserveB = 0
  · have idle : renewFrom pool = fun edge => edge := by
      funext edge
      simp [renewFrom, zero]
    rw [if_pos zero, idle, DiGraph.mapWeights_id]
  · have renewed : renewFrom pool = fun edge =>
        if edge.pool = pool.poolAddress then renewEdge pool edge else edge := by
      funext edge
      rw [renewFrom, if_neg zero]
    rw [if_neg zero, renewed, ← DiGraph.foldl_tracked EdgeData.pool graph _ _ tracks]
    cases HashMap.get poolEdges pool.poolAddress with
    | none => rfl
    | some indices => rfl

theorem foldl_updatePool (poolEdges : HashMap Pubkey (List Nat)) (pools : List DexPool)
    (graph : DiGraph Pubkey EdgeData)
    (tracks : ∀ address, graph.Tracks EdgeData.pool address
      ((HashMap.get poolEdges address).getD [])) :
    pools.foldl (updatePool poolEdges) graph = graph.mapWeights (renewAll pools) := by
  induction pools generalizing graph with
  | nil => exact (DiGraph.mapWeights_id graph).symm
  | cons pool rest ih =>
      rw [List.foldl_cons, updatePool_spec poolEdges graph pool (tracks _), ih,
        DiGraph.mapWeights_mapWeights]
      · rfl
      · exact fun address => tracks_mapWeights_renew graph address _ pool (tracks address)

omit [FloatArith F] in
theorem update_graph (held : PersistentGraph) (scan : Scan F) (sound : held.Sound) :
    (update held scan).graph.graph = held.graph.graph.mapWeights (renewAll scan.pools) :=
  foldl_updatePool held.poolEdges scan.pools held.graph.graph sound.tracks

omit [FloatArith F] in
theorem weights_update (held : PersistentGraph) (scan : Scan F) (sound : held.Sound) :
    (update held scan).weights = held.weights.map (renewAll scan.pools) := by
  rw [PersistentGraph.weights, update_graph held scan sound, DiGraph.weights_mapWeights]
  rfl

omit [FloatArith F] in
theorem sound_update (held : PersistentGraph) (scan : Scan F) (sound : held.Sound) :
    (update held scan).Sound := by
  have graph := update_graph held scan sound
  refine ⟨⟨?_, ?_, ?_⟩, ?_⟩
  · intro token place
    rw [graph]
    exact sound.coherent.indexed token place
  · rw [graph]
    exact DiGraph.named_mapWeights _ _ _ _
      (tokenIn_renewAll scan.pools) (tokenOut_renewAll scan.pools)
      sound.coherent.named
  · intro token member
    rw [graph] at member ⊢
    rcases sound.coherent.touched token member with ⟨edge, inside, ends⟩
    rw [DiGraph.weights_mapWeights]
    refine ⟨renewAll scan.pools edge, List.mem_map_of_mem inside, ?_⟩
    rw [tokenIn_renewAll, tokenOut_renewAll]
    exact ends
  · intro address
    rw [graph]
    exact DiGraph.tracks_mapWeights EdgeData.pool _ address _ (sound.tracks address) _
      (pool_renewAll scan.pools)

theorem sound_scanGraph (held : Option PersistentGraph) (scan : Scan F)
    (sound : ∀ pg, held = some pg → pg.Sound) : (scanGraph env held scan).Sound := by
  cases held with
  | none => exact sound_rebuild env scan
  | some pg =>
      rw [scanGraph]
      by_cases again : needRebuild (some pg) scan = true
      · rw [if_pos again]
        exact sound_rebuild env scan
      · rw [if_neg again]
        exact sound_update pg scan (sound pg rfl)

end Helios.RouteEngine
