import Helios.ScannedRoutes

/-! The scans of recorded routes. A record lists pools and tokens side by side; of a pool's two
tokens at most the one that goes in is compared with the record. -/

namespace Helios.HotRoutes

open Machine FloatArith CrossDex Runs PairIndex

/-- A recorded pair of pools. -/
structure HotRoute where
  poolA : Pubkey
  poolB : Pubkey
  tokenA : Pubkey
  tokenB : Pubkey

structure MultiHopHotRoute where
  pools : List Pubkey
  tokens : List Pubkey

section Scans

variable {F : Type} [FloatArith F] (powf : F → F → F) (now : Instant)

def hopOut (pool : DexPool) (tokenIn : Pubkey) (current : Nat) : Nat :=
  if pool.tokenA = tokenIn then pool.quoteAToB powf now current
  else if pool.tokenB = tokenIn then pool.quoteBToA powf now current
  else 0

def hopReserve (pool : DexPool) (tokenIn : Pubkey) : Nat :=
  if pool.tokenA = tokenIn then pool.reserveA else pool.reserveB

def hopImpact (pool : DexPool) (tokenIn : Pubkey) (current : Nat) : F :=
  if 0 < hopReserve pool tokenIn then
    mul (div (ofNat current) (ofNat (hopReserve pool tokenIn))) (ofNat 100)
  else ofNat 100

/-- The loop over the pools: the hops and the last amount, `none` where the loop ends invalid.
Tokens past those of the last pool are not read. -/
def walkHops : List DexPool → List Pubkey → Nat → Option (List (Hop F) × Nat)
  | [], _, current => some ([], current)
  | pool :: pools, tokenIn :: tokenOut :: tokens, current =>
      let amountOut := hopOut powf now pool tokenIn current
      if amountOut = 0 then none
      else
        let impact : F := hopImpact pool tokenIn current
        if lt (ofNat 10) impact then none
        else
          (walkHops pools (tokenOut :: tokens) amountOut).map (fun rest =>
            ({ pool := pool.poolAddress
               dexProgram := dexProgramFor pool.dexType
               tokenIn := tokenIn
               tokenOut := tokenOut
               amountOut := amountOut
               priceImpact := impact } :: rest.1, rest.2))
  | _ :: _, _, _ => none

def multiHopNet (grossProfit hops : Nat) : Int :=
  wrapI64 (wrapI64 grossProfit - (5000 + 5000 * hops : Nat))

def multiHopRoute (pools : List DexPool) (tokens : List Pubkey) (borrowAmount : Nat) :
    Option (RouteParams F) :=
  match walkHops powf now pools tokens borrowAmount with
  | none => none
  | some (hops, current) =>
      if current ≤ borrowAmount then none
      else
        let grossProfit := current - borrowAmount
        let netProfit := multiHopNet grossProfit hops.length
        if 5000 < netProfit then
          let maxImpact := (hops.map Hop.priceImpact).foldl FloatArith.max (ofNat 0)
          some {
            hops := hops
            borrowAmount := borrowAmount
            grossProfit := grossProfit
            netProfit := netProfit
            riskFactor := FloatArith.min (div maxImpact (ofNat 100)) (ofNat 1)
            strategy := "hot-route"
            tier := 0 }
        else none

def multiHopRoutes (cache : PoolStateCache) (borrowAmounts : List Nat)
    (record : MultiHopHotRoute) : List (RouteParams F) :=
  let pools := record.pools.filterMap cache.get
  if pools.length = record.pools.length then
    borrowAmounts.filterMap (multiHopRoute powf now pools record.tokens)
  else []

def scanMultihopHotRoutes (cache : PoolStateCache) (hotRoutes : List MultiHopHotRoute)
    (borrowAmounts : List Nat) : List (RouteParams F) :=
  rankRoutes cache (hotRoutes.flatMap (multiHopRoutes powf now cache borrowAmounts))

/-- The pool with the higher rate first. -/
def highLow (rateA rateB : PoolRate F) : Option (PoolRate F × PoolRate F) :=
  if lt rateB.rateAToB rateA.rateAToB then some (rateA, rateB)
  else if lt rateA.rateAToB rateB.rateAToB then some (rateB, rateA)
  else none

def hotDivergence (rateA rateB : PoolRate F) : Nat :=
  toU64 (mul (sub (div (FloatArith.max rateA.rateAToB rateB.rateAToB)
    (FloatArith.min rateA.rateAToB rateB.rateAToB)) (ofNat 1)) (ofNat 10000))

/-- The routes of a record whose pools have been rated: at most one a direction. The margin is
half that of the full scan. -/
def ratedRoutes (borrowAmounts : List Nat) (key : Pubkey × Pubkey) (rateA rateB : PoolRate F) :
    List (RouteParams F) :=
  match highLow rateA rateB with
  | none => []
  | some (high, low) =>
      let divergenceBps := hotDivergence rateA rateB
      if divergenceBps < dexFeeBps high.pool.dexType + dexFeeBps low.pool.dexType +
          minMarginAboveFeesBps / 2 then []
      else
        (if isAnchor key.1 then
          (bestRoute ((forwardRoutes powf now high low key borrowAmounts divergenceBps).map
            (fun route => { route with strategy := "hot-route" }))).toList
        else []) ++
        (if isAnchor key.2 then
          (bestRoute ((reverseRoutes powf now high low key borrowAmounts divergenceBps).map
            (fun route => { route with strategy := "hot-route" }))).toList
        else [])

def hotRoutes (cache : PoolStateCache) (borrowAmounts : List Nat) (record : HotRoute) :
    List (RouteParams F) :=
  match cache.get record.poolA, cache.get record.poolB with
  | some poolA, some poolB =>
      if hasReserves poolA && hasReserves poolB then
        let key := pairKey record.tokenA record.tokenB
        if pairAllowed key.1 key.2 then
          match poolRate powf now key.1 borrowAmounts poolA,
              poolRate powf now key.1 borrowAmounts poolB with
          | some rateA, some rateB => ratedRoutes powf now borrowAmounts key rateA rateB
          | _, _ => []
        else []
      else []
  | _, _ => []

def scanHotRoutes (cache : PoolStateCache) (records : List HotRoute) (borrowAmounts : List Nat) :
    List (RouteParams F) :=
  rankRoutes cache (records.flatMap (hotRoutes powf now cache borrowAmounts))

end Scans

/-! Which routes the tier filter keeps. -/

/-- An Orca pool without metadata, or with too little active liquidity. -/
def FragilePool (pool : DexPool) : Prop :=
  pool.dexType = .orcaWhirlpool ∧ ∀ orca, pool.orcaMeta = some orca → orca.liquidity < 1000000000

/-- A fragile pool costs a path its place unless a PumpSwap pool sets the tier first. -/
def Kept (pools : List DexPool) : Prop :=
  (∃ pool ∈ pools, pool.dexType = .pumpSwap) ∨ ∀ pool ∈ pools, ¬ FragilePool pool

section Tiers

variable {F : Type} (cache : PoolStateCache)

/-- The hops go through these cached pools, in order. -/
def Through (hops : List (Hop F)) (pools : List DexPool) : Prop :=
  hops.map (fun hop => cache.get hop.pool) = pools.map some

variable {cache}

theorem fragileOrca_iff (hop : Hop F) (pool : DexPool) (cached : cache.get hop.pool = some pool) :
    fragileOrca cache hop = true ↔ FragilePool pool := by
  rw [fragileOrca, cached, FragilePool]
  dsimp only
  by_cases orcaPool : pool.dexType = .orcaWhirlpool
  · rw [if_pos orcaPool]
    cases pool.orcaMeta with
    | none => simp [orcaPool]
    | some orca => simp [orcaPool]
  · rw [if_neg orcaPool]
    simp [orcaPool]

theorem through_cons (hop : Hop F) (hops : List (Hop F)) (pool : DexPool) (pools : List DexPool) :
    Through cache (hop :: hops) (pool :: pools) ↔
      cache.get hop.pool = some pool ∧ Through cache hops pools := by
  rw [Through, List.map_cons, List.map_cons, List.cons.injEq]
  exact Iff.rfl

theorem dexTypes_of_through (hops : List (Hop F)) (pools : List DexPool)
    (through : Through cache hops pools) :
    hops.filterMap (fun hop => (cache.get hop.pool).map DexPool.dexType) =
      pools.map DexPool.dexType := by
  induction hops generalizing pools with
  | nil =>
      rw [List.map_eq_nil_iff.mp through.symm]
      rfl
  | cons hop hops ih =>
      cases pools with
      | nil => cases through
      | cons pool pools =>
          rcases (through_cons hop hops pool pools).mp through with ⟨here, later⟩
          rw [List.filterMap_cons, here, List.map_cons]
          exact congrArg (pool.dexType :: ·) (ih pools later)

theorem any_fragile_iff (hops : List (Hop F)) (pools : List DexPool)
    (through : Through cache hops pools) :
    hops.any (fragileOrca cache) = true ↔ ∃ pool ∈ pools, FragilePool pool := by
  induction hops generalizing pools with
  | nil =>
      rw [List.map_eq_nil_iff.mp through.symm]
      simp
  | cons hop hops ih =>
      cases pools with
      | nil => cases through
      | cons pool pools =>
          rcases (through_cons hop hops pool pools).mp through with ⟨here, later⟩
          rw [List.any_cons, Bool.or_eq_true, fragileOrca_iff hop pool here, ih pools later,
            List.exists_mem_cons_iff]

theorem routeTier_kept_iff (route : RouteParams F) (pools : List DexPool)
    (through : Through cache route.hops pools) :
    routeTier cache route < 99 ↔ Kept pools := by
  have plain : (∀ pool ∈ pools, pool.dexType ≠ .orcaWhirlpool) → Kept pools :=
    fun none => Or.inr (fun pool member fragile => none pool member fragile.1)
  rw [routeTier, hopDexTypes, dexTypes_of_through route.hops pools through]
  simp only [List.all_map, List.any_map]
  split
  · next raydium =>
      refine iff_of_true (by decide) (plain ?_)
      intro pool member orcaPool
      have same := of_decide_eq_true (List.all_eq_true.mp raydium pool member)
      rw [orcaPool] at same
      cases same
  · split
    · next listed =>
        refine iff_of_true (by decide) (plain ?_)
        intro pool member orcaPool
        have same := of_decide_eq_true (List.all_eq_true.mp listed pool member)
        rw [orcaPool] at same
        rcases same with same | same
        · cases same
        · cases same
    · split
      · next pump =>
          refine iff_of_true (by decide) (Or.inl ?_)
          rcases List.any_eq_true.mp pump with ⟨pool, member, same⟩
          exact ⟨pool, member, of_decide_eq_true same⟩
      · next pump =>
          have unset : ¬ ∃ pool ∈ pools, pool.dexType = .pumpSwap := by
            rintro ⟨pool, member, same⟩
            exact pump (List.any_eq_true.mpr ⟨pool, member, decide_eq_true same⟩)
          split
          · split
            · next fragile =>
                rcases (any_fragile_iff route.hops pools through).mp fragile with
                  ⟨pool, member, weak⟩
                refine iff_of_false (by decide) ?_
                rintro (pumpPool | sound)
                · exact unset pumpPool
                · exact sound pool member weak
            · next sound =>
                refine iff_of_true (by decide) (Or.inr ?_)
                intro pool member weak
                exact sound ((any_fragile_iff route.hops pools through).mpr ⟨pool, member, weak⟩)
          · next orca =>
              refine iff_of_true (by decide) (plain ?_)
              intro pool member orcaPool
              exact orca (List.any_eq_true.mpr ⟨pool, member, decide_eq_true orcaPool⟩)

end Tiers

/-! What is asked of a scan, and how it comes down to the single records. -/

section Law

variable {F : Type} (cache : PoolStateCache)

/-- A route that ends in the mint it starts from, through pools that trade the tokens of their
hops. -/
structure ClosedRoute (route : RouteParams F) : Prop where
  closed : ∃ mint, Walk Hop.tokenIn Hop.tokenOut mint route.hops mint
  trades : ∀ hop ∈ route.hops, ∃ pool, cache.get hop.pool = some pool ∧
    mints pool = s(hop.tokenIn, hop.tokenOut)

/-- The scan of these records returns closed routes only, and none for a record that is not
consistent. -/
structure ReturnsClosed {Record : Type} (scan : List Record → List (RouteParams F))
    (Consistent : Record → Prop) (records : List Record) : Prop where
  closed : ∀ route ∈ scan records, ClosedRoute cache route
  rejects : ∀ record ∈ records, ¬ Consistent record → scan [record] = []

variable {cache}

theorem closedRoute_tier (route : RouteParams F) (tier : Nat) (closed : ClosedRoute cache route) :
    ClosedRoute cache { route with tier := tier } := ⟨closed.closed, closed.trades⟩

theorem returnsClosed_iff {Record : Type} (yields : Record → List (RouteParams F))
    (Consistent Pays : Record → Prop) (records : List Record)
    (pays : ∀ record, Pays record ↔ ∃ route ∈ yields record, routeTier cache route < 99)
    (lawful : ∀ record, Consistent record → ∀ route ∈ yields record, ClosedRoute cache route) :
    ReturnsClosed cache (fun records => rankRoutes cache (records.flatMap yields)) Consistent
        records ↔
      ∀ record ∈ records, Pays record → Consistent record := by
  constructor
  · intro returns record listed paid
    by_contra inconsistent
    have nothing := returns.rejects record listed inconsistent
    rcases (pays record).mp paid with ⟨route, found, low⟩
    have member := (mem_rankRoutes cache ([record].flatMap yields) _).mpr
      ⟨route, List.mem_flatMap.mpr ⟨record, List.mem_singleton_self _, found⟩, low, rfl⟩
    rw [nothing] at member
    cases member
  · intro consistent
    constructor
    · intro route returned
      rcases (mem_rankRoutes cache _ route).mp returned with ⟨found, member, low, same⟩
      rcases List.mem_flatMap.mp member with ⟨record, listed, yielded⟩
      have paid := (pays record).mpr ⟨found, yielded, low⟩
      rw [same]
      exact closedRoute_tier found _ (lawful record (consistent record listed paid) found yielded)
    · intro record listed inconsistent
      apply List.eq_nil_iff_forall_not_mem.mpr
      intro route returned
      rcases (mem_rankRoutes cache _ route).mp returned with ⟨found, member, low, -⟩
      rcases List.mem_flatMap.mp member with ⟨other, only, yielded⟩
      rw [List.mem_singleton.mp only] at yielded
      exact inconsistent (consistent record listed ((pays record).mpr ⟨found, yielded, low⟩))

end Law

/-! The recorded chains. -/

section Chains

variable {F : Type} [FloatArith F] (powf : F → F → F) (now : Instant)

/-- An amount passed from pool to pool, each of them taking the token recorded for it, quoting
something and moving by at most 10 %. -/
inductive Chain : List DexPool → List Pubkey → Nat → Nat → Prop
  | done (tokens : List Pubkey) (amount : Nat) : Chain [] tokens amount amount
  | hop (pool : DexPool) (pools : List DexPool) (tokenIn tokenOut : Pubkey)
      (tokens : List Pubkey) (amount last : Nat) (quotes : hopOut powf now pool tokenIn amount ≠ 0)
      (gentle : lt (ofNat 10) (hopImpact pool tokenIn amount : F) = false)
      (later : Chain pools (tokenOut :: tokens) (hopOut powf now pool tokenIn amount) last) :
      Chain (pool :: pools) (tokenIn :: tokenOut :: tokens) amount last

/-- The tokens in and out of one hop after another. -/
def steps (tokens : List Pubkey) : List (Pubkey × Pubkey) := tokens.zip tokens.tail

variable {powf now}

/-- The hops stand on the recorded pools and on the recorded tokens. -/
structure HopsOf (pools : List DexPool) (tokens : List Pubkey) (hops : List (Hop F)) : Prop where
  onPools : hops.map Hop.pool = pools.map DexPool.poolAddress
  onTokens : hops.map (fun hop => (hop.tokenIn, hop.tokenOut)) = (steps tokens).take pools.length

theorem walkHops_spec (pools : List DexPool) (tokens : List Pubkey) (amount last : Nat)
    (hops : List (Hop F)) (walked : walkHops powf now pools tokens amount = some (hops, last)) :
    Chain powf now pools tokens amount last ∧ HopsOf pools tokens hops := by
  induction pools generalizing tokens amount hops with
  | nil =>
      rw [walkHops] at walked
      cases walked
      exact ⟨.done tokens _, rfl, rfl⟩
  | cons pool pools ih =>
      cases tokens with
      | nil => cases walked
      | cons tokenIn tokens =>
          cases tokens with
          | nil => cases walked
          | cons tokenOut tokens =>
              simp only [walkHops, Option.ite_none_left_eq_some] at walked
              rcases walked with ⟨quotes, gentle, later⟩
              rcases Option.map_eq_some_iff.mp later with ⟨⟨rest, reached⟩, found, same⟩
              cases same
              rcases ih _ _ _ found with ⟨chain, names, pairs⟩
              refine ⟨.hop pool pools tokenIn tokenOut tokens amount _ quotes
                (Bool.eq_false_iff.mpr gentle) chain, ?_, ?_⟩
              · rw [List.map_cons, List.map_cons, names]
              · rw [List.map_cons, pairs]
                rfl

theorem walkHops_of_chain (pools : List DexPool) (tokens : List Pubkey) (amount last : Nat)
    (chain : Chain powf now pools tokens amount last) :
    ∃ hops : List (Hop F), walkHops powf now pools tokens amount = some (hops, last) := by
  induction chain with
  | done tokens amount => exact ⟨[], rfl⟩
  | hop pool pools tokenIn tokenOut tokens amount last quotes gentle later ih =>
      rcases ih with ⟨hops, found⟩
      rw [walkHops]
      dsimp only
      rw [if_neg quotes, if_neg (Bool.eq_false_iff.mp gentle), found]
      exact ⟨_, rfl⟩

omit [FloatArith F] in
theorem hops_length (pools : List DexPool) (tokens : List Pubkey) (hops : List (Hop F))
    (stand : HopsOf pools tokens hops) : hops.length = pools.length := by
  have sizes := congrArg List.length stand.onPools
  rwa [List.length_map, List.length_map] at sizes

theorem multiHopRoute_spec (pools : List DexPool) (tokens : List Pubkey) (borrowAmount : Nat)
    (route : RouteParams F)
    (built : multiHopRoute powf now pools tokens borrowAmount = some route) :
    HopsOf pools tokens route.hops ∧ ∃ last, Chain powf now pools tokens borrowAmount last ∧
      borrowAmount < last ∧ 5000 < multiHopNet (last - borrowAmount) pools.length := by
  unfold multiHopRoute at built
  split at built
  · cases built
  · next hops last walked =>
      rcases walkHops_spec pools tokens borrowAmount last hops walked with ⟨chain, stand⟩
      rw [Option.ite_none_left_eq_some] at built
      rcases built with ⟨gains, built⟩
      dsimp only at built
      rw [Option.ite_none_right_eq_some] at built
      rcases built with ⟨nets, same⟩
      rw [hops_length pools tokens hops stand] at nets
      cases same
      exact ⟨stand, last, chain, not_le.mp gains, nets⟩

theorem multiHopRoute_of_chain (pools : List DexPool) (tokens : List Pubkey)
    (borrowAmount last : Nat) (chain : Chain powf now pools tokens borrowAmount last)
    (gains : borrowAmount < last)
    (nets : 5000 < multiHopNet (last - borrowAmount) pools.length) :
    ∃ route : RouteParams F, multiHopRoute powf now pools tokens borrowAmount = some route := by
  rcases walkHops_of_chain pools tokens borrowAmount last chain with ⟨hops, walked⟩
  have stand := (walkHops_spec pools tokens borrowAmount last hops walked).2
  rw [← hops_length pools tokens hops stand] at nets
  rw [multiHopRoute, walked]
  dsimp only
  rw [if_neg (not_le.mpr gains), if_pos nets]
  exact ⟨_, rfl⟩

end Chains

section Records

variable {cache : PoolStateCache}

theorem filterMap_of_cached (addresses : List Pubkey) (pools : List DexPool)
    (cached : addresses.map cache.get = pools.map some) :
    addresses.filterMap cache.get = pools := by
  calc
    addresses.filterMap cache.get = (addresses.map cache.get).filterMap id := by
      rw [List.filterMap_map, Function.id_comp]
    _ = (pools.map some).filterMap id := by rw [cached]
    _ = pools := by
      rw [List.filterMap_map, Function.id_comp, List.filterMap_some]

theorem cached_iff_length (addresses : List Pubkey) :
    (addresses.filterMap cache.get).length = addresses.length ↔
      addresses.map cache.get = (addresses.filterMap cache.get).map some := by
  constructor
  · intro whole
    rw [List.filterMap_length_eq_length] at whole
    induction addresses with
    | nil => rfl
    | cons address addresses ih =>
        rcases Option.isSome_iff_exists.mp (whole address List.mem_cons_self) with ⟨pool, found⟩
        have later := ih (fun other member => whole other (List.mem_cons_of_mem _ member))
        rw [List.map_cons, List.filterMap_cons, found, later]
        rfl
  · intro cached
    have sizes := congrArg List.length cached
    rw [List.length_map, List.length_map] at sizes
    exact sizes.symm

theorem addresses_of_cached
    (keyed : ∀ address pool, cache.get address = some pool → pool.poolAddress = address)
    (addresses : List Pubkey) (pools : List DexPool)
    (cached : addresses.map cache.get = pools.map some) :
    pools.map DexPool.poolAddress = addresses := by
  induction addresses generalizing pools with
  | nil =>
      rw [List.map_eq_nil_iff.mp cached.symm]
      rfl
  | cons address addresses ih =>
      cases pools with
      | nil => cases cached
      | cons pool pools =>
          rw [List.map_cons, List.map_cons, List.cons.injEq] at cached
          rw [List.map_cons, keyed address pool cached.1, ih pools cached.2]

theorem mem_multiHopRoutes {F : Type} [FloatArith F] (powf : F → F → F) (now : Instant)
    (borrowAmounts : List Nat) (record : MultiHopHotRoute) (route : RouteParams F) :
    route ∈ multiHopRoutes powf now cache borrowAmounts record ↔
      ∃ pools, record.pools.map cache.get = pools.map some ∧ ∃ borrowAmount ∈ borrowAmounts,
        multiHopRoute powf now pools record.tokens borrowAmount = some route := by
  rw [multiHopRoutes]
  constructor
  · intro member
    split at member
    · next whole =>
        rcases List.mem_filterMap.mp member with ⟨borrowAmount, listed, built⟩
        exact ⟨_, (cached_iff_length record.pools).mp whole, borrowAmount, listed, built⟩
    · cases member
  · rintro ⟨pools, cached, borrowAmount, listed, built⟩
    have same := filterMap_of_cached record.pools pools cached
    have whole : (record.pools.filterMap cache.get).length = record.pools.length := by
      rw [cached_iff_length, same]
      exact cached
    rw [if_pos whole, same]
    exact List.mem_filterMap.mpr ⟨borrowAmount, listed, built⟩

end Records

section MultiHop

variable {F : Type} [FloatArith F] (powf : F → F → F) (now : Instant) (cache : PoolStateCache)

/-- The recorded pools are cached, pass the tier filter, and turn some loan into more than it
and the fees. -/
def Pays (borrowAmounts : List Nat) (record : MultiHopHotRoute) : Prop :=
  ∃ pools, record.pools.map cache.get = pools.map some ∧ Kept pools ∧
    ∃ borrowAmount ∈ borrowAmounts, ∃ last,
      Chain powf now pools record.tokens borrowAmount last ∧ borrowAmount < last ∧
      5000 < multiHopNet (last - borrowAmount) pools.length

/-- The tokens are a cycle, and each pool trades the two that it stands between. -/
structure Consistent (record : MultiHopHotRoute) : Prop where
  cycle : record.tokens.head? = record.tokens.getLast?
  trades : List.Forall₂ (fun address step => ∃ pool, cache.get address = some pool ∧
    mints pool = s(step.1, step.2)) record.pools (steps record.tokens)

omit [FloatArith F] in
theorem closed_of_cycle (tokens : List Pubkey) (hops : List (Hop F))
    (cycle : tokens.head? = tokens.getLast?)
    (stand : hops.map (fun hop => (hop.tokenIn, hop.tokenOut)) = steps tokens) :
    ∃ mint, Walk Hop.tokenIn Hop.tokenOut mint hops mint := by
  have ends : ∀ first last, Walk Hop.tokenIn Hop.tokenOut first hops last ↔
      Walk Prod.fst Prod.snd first (steps tokens) last := by
    intro first last
    apply walk_congr
    · rw [← stand, List.map_map]
      rfl
    · rw [← stand, List.map_map]
      rfl
  cases tokens with
  | nil => exact ⟨default, (ends default default).mpr rfl⟩
  | cons first tokens =>
      refine ⟨first, (ends first first).mpr ?_⟩
      rw [List.head?_cons, List.getLast?_eq_some_getLast (List.cons_ne_nil first tokens)] at cycle
      have walk := walk_zip_tail first tokens
      rw [← Option.some.inj cycle] at walk
      exact walk

variable (keyed : ∀ address pool, cache.get address = some pool → pool.poolAddress = address)

include keyed

omit [FloatArith F] in
theorem through_of_hops (addresses : List Pubkey) (pools : List DexPool) (tokens : List Pubkey)
    (hops : List (Hop F)) (cached : addresses.map cache.get = pools.map some)
    (stand : HopsOf pools tokens hops) :
    hops.map Hop.pool = addresses ∧ Through cache hops pools := by
  have named : hops.map Hop.pool = addresses := by
    rw [stand.onPools]
    exact addresses_of_cached keyed addresses pools cached
  refine ⟨named, ?_⟩
  rw [Through, ← cached, ← named, List.map_map]
  rfl

theorem closed_of_consistent (borrowAmounts : List Nat) (record : MultiHopHotRoute)
    (consistent : Consistent cache record) (route : RouteParams F)
    (member : route ∈ multiHopRoutes powf now cache borrowAmounts record) :
    ClosedRoute cache route := by
  rcases (mem_multiHopRoutes powf now borrowAmounts record route).mp member with
    ⟨pools, cached, borrowAmount, -, built⟩
  have stand := (multiHopRoute_spec pools record.tokens borrowAmount route built).1
  have named := (through_of_hops cache keyed record.pools pools record.tokens route.hops cached
    stand).1
  have sizes : pools.length = (steps record.tokens).length := by
    rw [← consistent.trades.length_eq, ← named, List.length_map]
    exact (hops_length pools record.tokens route.hops stand).symm
  have pairs := stand.onTokens
  rw [sizes, List.take_length] at pairs
  constructor
  · exact closed_of_cycle record.tokens route.hops consistent.cycle pairs
  · have trades := consistent.trades
    rw [← named, ← pairs, List.forall₂_map_left_iff, List.forall₂_map_right_iff,
      List.forall₂_same] at trades
    exact trades

theorem pays_iff (borrowAmounts : List Nat) (record : MultiHopHotRoute) :
    Pays powf now cache borrowAmounts record ↔
      ∃ route ∈ multiHopRoutes powf now cache borrowAmounts record,
        routeTier cache route < 99 := by
  constructor
  · rintro ⟨pools, cached, kept, borrowAmount, listed, last, chain, gains, nets⟩
    rcases multiHopRoute_of_chain pools record.tokens borrowAmount last chain gains nets with
      ⟨route, built⟩
    have stand := (multiHopRoute_spec pools record.tokens borrowAmount route built).1
    refine ⟨route, (mem_multiHopRoutes powf now borrowAmounts record route).mpr
      ⟨pools, cached, borrowAmount, listed, built⟩, ?_⟩
    exact (routeTier_kept_iff route pools
      (through_of_hops cache keyed record.pools pools _ _ cached stand).2).mpr kept
  · rintro ⟨route, member, low⟩
    rcases (mem_multiHopRoutes powf now borrowAmounts record route).mp member with
      ⟨pools, cached, borrowAmount, listed, built⟩
    rcases multiHopRoute_spec pools record.tokens borrowAmount route built with
      ⟨stand, last, chain, gains, nets⟩
    refine ⟨pools, cached, ?_, borrowAmount, listed, last, chain, gains, nets⟩
    exact (routeTier_kept_iff route pools
      (through_of_hops cache keyed record.pools pools _ _ cached stand).2).mp low

end MultiHop

end Helios.HotRoutes
