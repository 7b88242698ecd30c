import Helios.CyclicArb

/-! The scanner that answers vault updates, from an index of counterparts made earlier,
and the routes of all scanners over a run of the cache. -/

namespace Helios

open Machine FloatArith CrossDex ScannedRoutes

/-- `fee_tiers::pool_fee_bps`. -/
def poolFeeBps (pool : DexPool) : Nat :=
  if 0 < pool.feeBps ∧ pool.feeBps ≠ 25 then pool.feeBps
  else
    match pool.dexType with
    | .raydiumClmm =>
        match pool.orcaMeta with
        | some metadata =>
            match metadata.tickSpacing with
            | 1 => 1
            | 2 => 2
            | 4 | 8 | 10 => 4
            | 20 | 60 => 25
            | 120 | 200 => 100
            | _ => 25
        | none => 25
    | .orcaWhirlpool =>
        match pool.orcaMeta with
        | some metadata =>
            match metadata.tickSpacing with
            | 1 => 1
            | 2 => 2
            | 4 => 4
            | 8 => 8
            | 16 | 32 => 30
            | 64 => 65
            | 96 | 128 => 100
            | 256 => 200
            | _ => max pool.feeBps 30
        | none => 30
    | .meteoraDlmm =>
        match pool.meteoraMeta with
        | some metadata => max metadata.binStep 1
        | none => 25
    | _ => 25

/-- The cache with the counterpart index over it. -/
structure OpportunityScanner where
  poolCache : PoolStateCache
  /-- Pool to the other pools that had its token pair when the index was made. -/
  counterpartIndex : HashMap Pubkey (List Pubkey)
  lastLog : Instant

namespace OpportunityScanner

def maxSpreadBps : Nat := 2000
def borrows : List Nat := [50000000, 100000000, 500000000]
def fees : Nat := 15000
def minNet : Int := 5000
def maxRoutes : Nat := 3
def rebuildSecs : Nat := 60

def new (cache : PoolStateCache) (now : Instant) : OpportunityScanner :=
  ⟨cache, HashMap.empty, now⟩

/-- The addresses of the pools with reserves, by token pair. -/
def pairPools (cache : PoolStateCache) : HashMap (Pubkey × Pubkey) (List Pubkey) :=
  HashMap.pushAll HashMap.empty (((HashMap.values cache.inner).filter hasReserves).map
    (fun pool => (canonicalPair pool.tokenA pool.tokenB, pool.poolAddress)))

/-- The entries of the index that one pair gives. -/
def counterpartsOf (pools : List Pubkey) : List (Pubkey × List Pubkey) :=
  if pools.length < 2 then []
  else
    (pools.map (fun address => (address, pools.filter (fun other => decide (other ≠ address))))).filter
      (fun entry => decide (entry.2 ≠ []))

def rebuildIndex (scanner : OpportunityScanner) : OpportunityScanner :=
  { scanner with
    counterpartIndex := ((pairPools scanner.poolCache).entries.flatMap
      (fun entry => counterpartsOf entry.2)).foldl
        (fun index entry => index.insert entry.1 entry.2) HashMap.empty }

/-- The side that can be borrowed, and the other token. -/
def anchorOf (pool : DexPool) : Option (Pubkey × Pubkey) :=
  if pool.tokenA = wsol then some (wsol, pool.tokenB)
  else if pool.tokenB = wsol then some (wsol, pool.tokenA)
  else if pool.tokenA = usdc then some (usdc, pool.tokenB)
  else if pool.tokenB = usdc then some (usdc, pool.tokenA)
  else none

def dexProgram : DexType → Pubkey
  | .raydiumAmmV4 => DexPrograms.raydiumAmmV4
  | .pumpSwap => DexPrograms.pumpswap
  | .orcaWhirlpool => DexPrograms.orcaWhirlpool
  | .meteoraDlmm => DexPrograms.meteoraDlmm
  | .raydiumClmm => DexPrograms.raydiumClmm
  | _ => default

section Update

variable {F : Type} [FloatArith F] (powf : F → F → F) (now : Instant)

def quoteBuy (pool : DexPool) (anchor : Pubkey) (amount : Nat) : Nat :=
  pool.quote powf now (decide (pool.tokenA = anchor)) amount

def quoteSell (pool : DexPool) (anchor : Pubkey) (amount : Nat) : Nat :=
  pool.quote powf now (!decide (pool.tokenA = anchor)) amount

def netAfterFees (gross : Nat) : Int := wrapI64 (wrapI64 gross - (fees : Nat))

/-- Whether the spread in basis points covers both fees, and is not too good to be true. -/
def spreadAllowed (F : Type) [FloatArith F] (buyPool sellPool : DexPool)
    (borrow sellOut : Nat) : Bool :=
  let spread : F := mul (sub (div (ofNat sellOut) (ofNat borrow)) (ofNat 1)) (ofNat 10000)
  let combinedFees := wrap 64 (poolFeeBps buyPool + poolFeeBps sellPool)
  let minSpread : F := add (ofNat combinedFees) (ofNat 10)
  !lt spread minSpread && !lt (ofNat maxSpreadBps) spread

/-- Buy on one pool, sell on the other. -/
def buySellRoute (buyPool sellPool : DexPool) (anchor meme : Pubkey) (borrow buyOut : Nat) :
    Option (RouteParams F) :=
  let sellOut := quoteSell powf now sellPool anchor buyOut
  if sellOut ≤ borrow then none
  else if netAfterFees (sellOut - borrow) < minNet then none
  else if !spreadAllowed F buyPool sellPool borrow sellOut then none
  else
    some {
      hops := [
        { pool := buyPool.poolAddress
          dexProgram := dexProgram buyPool.dexType
          tokenIn := anchor
          tokenOut := meme
          amountOut := buyOut
          priceImpact := priceImpact buyPool true borrow },
        { pool := sellPool.poolAddress
          dexProgram := dexProgram sellPool.dexType
          tokenIn := meme
          tokenOut := anchor
          amountOut := sellOut
          priceImpact := ofNat 0 }]
      borrowAmount := borrow
      grossProfit := sellOut - borrow
      netProfit := netAfterFees (sellOut - borrow)
      riskFactor := ofRat (15 / 100)
      strategy := "shred_opp_scan"
      tier := 1 }

/-- The pool that gives more of the other token is bought on. -/
def comparePools (pool counterpart : DexPool) (anchor meme : Pubkey) (borrow : Nat) :
    Option (RouteParams F) :=
  let outThis := quoteBuy powf now pool anchor borrow
  let outCounterpart := quoteBuy powf now counterpart anchor borrow
  if outThis = 0 ∨ outCounterpart = 0 then none
  else if outCounterpart < outThis then
    buySellRoute powf now pool counterpart anchor meme borrow outThis
  else if outThis < outCounterpart then
    buySellRoute powf now counterpart pool anchor meme borrow outCounterpart
  else none

/-- The route over one counterpart, at the first borrow that passes. -/
def counterpartRoute (cache : PoolStateCache) (pool : DexPool) (anchor meme address : Pubkey) :
    Option (RouteParams F) := do
  let counterpart ← cache.get address
  if hasReserves counterpart then
    borrows.findSome? (comparePools powf now pool counterpart anchor meme)
  else none

/-- The routes, and the scanner with its index made anew every minute. -/
def onVaultUpdate (scanner : OpportunityScanner) (poolAddr : Pubkey) :
    List (RouteParams F) × OpportunityScanner :=
  match HashMap.get scanner.counterpartIndex poolAddr, scanner.poolCache.get poolAddr with
  | some counterparts, some pool =>
      if !hasReserves pool then ([], scanner)
      else
        match anchorOf pool with
        | none => ([], scanner)
        | some (anchor, meme) =>
            let routes := counterparts.filterMap
              (counterpartRoute powf now scanner.poolCache pool anchor meme)
            let sorted := routes.mergeSort
              (fun first second => decide (second.netProfit ≤ first.netProfit))
            (sorted.take maxRoutes,
              if rebuildSecs ≤ scanner.lastLog.elapsedSecs now then
                { scanner.rebuildIndex with lastLog := now }
              else scanner)
  | _, _ => ([], scanner)

end Update

/-! The routes over counterparts that trade the pool's pair. -/

/-- Every counterpart that a vault update of the pool compares it with still trades the
pool's pair. -/
def CounterpartsCurrent (scanner : OpportunityScanner) (poolAddr : Pubkey) : Prop :=
  ∀ counterparts pool, HashMap.get scanner.counterpartIndex poolAddr = some counterparts →
    scanner.poolCache.get poolAddr = some pool → hasReserves pool = true → anchorOf pool ≠ none →
    ∀ address ∈ counterparts, ∀ counterpart, scanner.poolCache.get address = some counterpart →
      hasReserves counterpart = true → PairIndex.mints counterpart = PairIndex.mints pool

theorem anchorOf_spec (pool : DexPool) (anchor meme : Pubkey)
    (found : anchorOf pool = some (anchor, meme)) :
    anchor ∈ anchorTokens ∧ PairIndex.mints pool = s(anchor, meme) := by
  have lends : wsol ∈ anchorTokens ∧ usdc ∈ anchorTokens := by
    simp only [anchorTokens, List.mem_cons, true_or, or_true, and_self]
  rcases lends with ⟨wsolLends, usdcLends⟩
  simp only [anchorOf] at found
  generalize wsol = sol at *
  generalize usdc = usd at *
  rw [PairIndex.mints]
  split at found
  · next first =>
      cases found
      exact ⟨wsolLends, by rw [first]⟩
  · split at found
    · next second =>
        cases found
        exact ⟨wsolLends, by rw [second, Sym2.eq_swap]⟩
    · split at found
      · next first =>
          cases found
          exact ⟨usdcLends, by rw [first]⟩
      · split at found
        · next second =>
            cases found
            exact ⟨usdcLends, by rw [second, Sym2.eq_swap]⟩
        · cases found

theorem trades_of_mints (pool : DexPool) (tokenIn tokenOut : Pubkey)
    (pair : PairIndex.mints pool = s(tokenIn, tokenOut)) :
    Trades pool (decide (pool.tokenA = tokenIn)) tokenIn tokenOut := by
  apply trades_of_pair
  rw [PairIndex.mints, Sym2.eq_iff] at pair
  rcases pair with same | swapped
  · exact Or.inl same
  · exact Or.inr swapped.symm

theorem mem_borrows (borrow : Nat) (member : borrow ∈ borrows) :
    0 < borrow ∧ borrow ≤ 500000000 := by
  simp only [borrows, List.mem_cons, List.not_mem_nil, or_false] at member
  omega

section Soundness

variable (powf : Double → Double → Double) (now : Instant) (cache : PoolStateCache)
  (keyed : ∀ address pool, cache.get address = some pool → pool.poolAddress = address)

include keyed in
theorem profitable_buySell (buyPool sellPool : DexPool) (buyAddress sellAddress : Pubkey)
    (anchor meme : Pubkey) (borrow : Nat) (route : RouteParams Double)
    (lent : anchor ∈ anchorTokens) (listed : borrow ∈ borrows)
    (buyCached : cache.get buyAddress = some buyPool)
    (sellCached : cache.get sellAddress = some sellPool)
    (buyPair : PairIndex.mints buyPool = s(anchor, meme))
    (sellPair : PairIndex.mints sellPool = s(anchor, meme))
    (built : buySellRoute powf now buyPool sellPool anchor meme borrow
      (quoteBuy powf now buyPool anchor borrow) = some route) :
    Profitable powf now cache fees route := by
  simp only [buySellRoute, Option.ite_none_left_eq_some, Bool.not_eq_true', Bool.not_eq_false,
    spreadAllowed, Bool.and_eq_true] at built
  rcases built with ⟨gains, nets, spread, same⟩
  rcases mem_borrows borrow listed with ⟨some, little⟩
  have twice := le_of_spread_capped borrow _ some spread.2
  have same := (Option.some.inj same).symm
  generalize bought : quoteBuy powf now buyPool anchor borrow = buyOut at *
  generalize sold : quoteSell powf now sellPool anchor buyOut = sellOut at *
  have exactly : netAfterFees (sellOut - borrow) = ((sellOut - borrow : Nat) : Int) - fees :=
    signedNet_eq _ _ (by omega) (by decide)
  have positive := not_lt.mp nets
  rw [exactly, minNet] at positive
  subst same
  constructor
  · exact ⟨anchor, lent, rfl, rfl, rfl⟩
  · refine ⟨sellOut, ⟨⟨buyPool, _, ?_, trades_of_mints _ _ _ buyPair, bought.symm⟩,
      ⟨sellPool, _, ?_, trades_back _ _ _ _ (trades_of_mints _ _ _ sellPair), sold.symm⟩, rfl⟩, ?_, ?_⟩
    · rw [keyed _ _ buyCached]
      exact buyCached
    · rw [keyed _ _ sellCached]
      exact sellCached
    · dsimp only
      rw [exactly]
      omega
    · dsimp only
      rw [exactly]
      omega

include keyed in
theorem profitable_comparePools (pool counterpart : DexPool) (address other : Pubkey)
    (anchor meme : Pubkey) (borrow : Nat) (route : RouteParams Double)
    (lent : anchor ∈ anchorTokens) (listed : borrow ∈ borrows)
    (cached : cache.get address = some pool) (otherCached : cache.get other = some counterpart)
    (pair : PairIndex.mints pool = s(anchor, meme))
    (otherPair : PairIndex.mints counterpart = s(anchor, meme))
    (built : comparePools powf now pool counterpart anchor meme borrow = some route) :
    Profitable powf now cache fees route := by
  simp only [comparePools, Option.ite_none_left_eq_some] at built
  rcases built with ⟨-, built⟩
  split at built
  · exact profitable_buySell powf now cache keyed pool counterpart address other anchor meme borrow
      route lent listed cached otherCached pair otherPair built
  · split at built
    · exact profitable_buySell powf now cache keyed counterpart pool other address anchor meme borrow
        route lent listed otherCached cached otherPair pair built
    · cases built

end Soundness

theorem profitable_onVaultUpdate (powf : Double → Double → Double) (now : Instant)
    (scanner : OpportunityScanner)
    (keyed : ∀ address pool, scanner.poolCache.get address = some pool →
      pool.poolAddress = address)
    (poolAddr : Pubkey) (current : CounterpartsCurrent scanner poolAddr)
    (route : RouteParams Double)
    (returned : route ∈ (onVaultUpdate powf now scanner poolAddr).1) :
    Profitable powf now scanner.poolCache fees route := by
  rw [onVaultUpdate] at returned
  split at returned
  · next counterparts pool indexed cached =>
      split at returned
      · cases returned
      · next reserves =>
        have reserves : hasReserves pool = true := by
          simpa only [Bool.not_eq_true', Bool.not_eq_false] using reserves
        split at returned
        · cases returned
        · next anchor meme found =>
            rcases anchorOf_spec pool anchor meme found with ⟨lent, pair⟩
            have member := List.mem_mergeSort.mp (List.mem_of_mem_take returned)
            rcases List.mem_filterMap.mp member with ⟨address, named, built⟩
            rcases Option.bind_eq_some_iff.mp built with ⟨counterpart, otherCached, built⟩
            rw [Option.ite_none_right_eq_some] at built
            rcases List.exists_of_findSome?_eq_some built.2 with ⟨borrow, listed, compared⟩
            have anchored : anchorOf pool ≠ none := by
              rw [found]
              exact Option.some_ne_none _
            have otherPair := current counterparts pool indexed cached reserves anchored address
              named counterpart otherCached built.1
            exact profitable_comparePools powf now scanner.poolCache keyed pool counterpart poolAddr
              address anchor meme borrow route lent listed cached otherCached pair
              (otherPair.trans pair) compared
  · cases returned

/-! The four scanners over one cache that changes between their calls. -/

inductive Event where
  | cache (op : PairIndex.CacheOp)
  | rebuildIndex
  | scanCrossDex (now : Instant) (borrowAmounts : List Nat)
  | scanPair (now : Instant) (tokenA tokenB : Pubkey) (borrowAmounts : List Nat)
  | scanCrossDex3hop (now : Instant) (borrowAmounts : List Nat)
  | scanCyclic (now : Instant) (borrowAmounts : List Nat)
  | vaultUpdate (now : Instant) (poolAddr : Pubkey)

section Runs

variable (powf : Double → Double → Double)

/-- A scan leaves the cache and the index as they are. -/
def step (scanner : OpportunityScanner) : Event → OpportunityScanner
  | .cache op => { scanner with poolCache := PairIndex.applyOp powf scanner.poolCache op }
  | .rebuildIndex => scanner.rebuildIndex
  | .vaultUpdate now poolAddr => (onVaultUpdate powf now scanner poolAddr).2
  | _ => scanner

/-- Every route an event returns is a closed chain that pays more than the fees. -/
def Lawful (scanner : OpportunityScanner) : Event → Prop
  | .cache _ | .rebuildIndex => True
  | .scanCrossDex now borrowAmounts =>
      ∀ route ∈ scanCrossDexOpportunities powf now scanner.poolCache borrowAmounts,
        Profitable powf now scanner.poolCache (txFeePerHop * 2) route
  | .scanPair now tokenA tokenB borrowAmounts =>
      ∀ route ∈ scanPairOpportunities powf now scanner.poolCache tokenA tokenB borrowAmounts,
        Profitable powf now scanner.poolCache (txFeePerHop * 2) route
  | .scanCrossDex3hop now borrowAmounts =>
      ∀ route ∈ ThreeHop.scanCrossDex3hop powf now scanner.poolCache borrowAmounts,
        Profitable powf now scanner.poolCache (txFeePerHop * 3) route
  | .scanCyclic now borrowAmounts =>
      ∀ route ∈ CyclicArb.scanCyclicOpportunities powf now scanner.poolCache borrowAmounts,
        Profitable powf now scanner.poolCache (txFeePerHop * 3) route
  | .vaultUpdate now poolAddr =>
      ∀ route ∈ (onVaultUpdate powf now scanner poolAddr).1,
        Profitable powf now scanner.poolCache fees route

/-- The condition: only a vault update compares pools by an index made earlier. -/
def Current (scanner : OpportunityScanner) : Event → Prop
  | .vaultUpdate _ poolAddr => CounterpartsCurrent scanner poolAddr
  | _ => True

/-- What a run does to the cache. -/
def cacheOps (events : List Event) : List PairIndex.CacheOp :=
  events.filterMap (fun event =>
    match event with
    | .cache op => some op
    | _ => none)

theorem onVaultUpdate_state (now : Instant) (scanner : OpportunityScanner) (poolAddr : Pubkey) :
    (onVaultUpdate powf now scanner poolAddr).2 = scanner ∨
      (onVaultUpdate powf now scanner poolAddr).2 = { scanner.rebuildIndex with lastLog := now } := by
  rw [onVaultUpdate]
  split
  · split
    · exact Or.inl rfl
    · split
      · exact Or.inl rfl
      · dsimp only
        split
        · exact Or.inr rfl
        · exact Or.inl rfl
  · exact Or.inl rfl

/-- A counterpart in the index was inserted under the pair of its pool. -/
structure Indexed (ops : List PairIndex.CacheOp) (scanner : OpportunityScanner) : Prop where
  coherent : PairIndex.Coherent ops scanner.poolCache
  paired : ∀ address counterparts,
    HashMap.get scanner.counterpartIndex address = some counterparts →
    ∀ other ∈ counterparts, ∃ first second,
      PairIndex.CacheOp.upsert first ∈ ops ∧ PairIndex.CacheOp.upsert second ∈ ops ∧
      first.poolAddress = address ∧ second.poolAddress = other ∧
      PairIndex.mints first = PairIndex.mints second

/-- What is grouped under a pair was inserted under it. -/
theorem inserted_of_mem_pairPools (ops : List PairIndex.CacheOp) (cache : PoolStateCache)
    (coherent : PairIndex.Coherent ops cache) (pair : Pubkey × Pubkey) (pools : List Pubkey)
    (grouped : HashMap.get (pairPools cache) pair = some pools) (address : Pubkey)
    (member : address ∈ pools) :
    ∃ inserted, PairIndex.CacheOp.upsert inserted ∈ ops ∧ inserted.poolAddress = address ∧
      canonicalPair inserted.tokenA inserted.tokenB = pair := by
  have listed : address ∈ (HashMap.get (pairPools cache) pair).getD [] := by
    rw [grouped]
    exact member
  rcases List.mem_map.mp ((HashMap.mem_pushAll _ _ _).mp listed) with ⟨pool, kept, same⟩
  rcases (HashMap.mem_values _ pool).mp (List.mem_filter.mp kept).1 with ⟨key, found⟩
  rcases coherent.cached key pool found with ⟨own, -, inserted, among, home, sameMints⟩
  simp only [Prod.mk.injEq] at same
  refine ⟨inserted, among, ?_, ?_⟩
  · rw [home, ← own, same.2]
  · rw [← same.1]
    exact (PairIndex.canonicalPair_eq_iff _ _ _ _).mpr sameMints

theorem mem_counterpartsOf (pools : List Pubkey) (entry : Pubkey × List Pubkey)
    (member : entry ∈ counterpartsOf pools) :
    entry.1 ∈ pools ∧ ∀ other ∈ entry.2, other ∈ pools := by
  rw [counterpartsOf] at member
  split at member
  · cases member
  · rcases List.mem_map.mp (List.mem_filter.mp member).1 with ⟨address, inside, rfl⟩
    exact ⟨inside, fun other kept => (List.mem_filter.mp kept).1⟩

theorem indexed_rebuildIndex (ops : List PairIndex.CacheOp) (scanner : OpportunityScanner)
    (coherent : PairIndex.Coherent ops scanner.poolCache) :
    Indexed ops scanner.rebuildIndex := by
  constructor
  · exact coherent
  · intro address counterparts found other member
    rcases HashMap.mem_of_get_foldl_insert Prod.fst Prod.snd _ address counterparts found with
      ⟨entry, written, rfl, rfl⟩
    rcases List.mem_flatMap.mp written with ⟨⟨pair, pools⟩, grouped, written⟩
    rcases mem_counterpartsOf pools entry written with ⟨own, others⟩
    have grouped := AList.mem_lookup_iff.mpr grouped
    rcases inserted_of_mem_pairPools ops _ coherent pair pools grouped _ own with
      ⟨first, firstIn, firstAt, firstPair⟩
    rcases inserted_of_mem_pairPools ops _ coherent pair pools grouped _ (others other member) with
      ⟨second, secondIn, secondAt, secondPair⟩
    refine ⟨first, second, firstIn, secondIn, firstAt, secondAt, ?_⟩
    exact (PairIndex.canonicalPair_eq_iff _ _ _ _).mp (firstPair.trans secondPair.symm)

theorem indexed_step (ops : List PairIndex.CacheOp) (scanner : OpportunityScanner)
    (event : Event) (among : ∀ op, event = .cache op → op ∈ ops)
    (indexed : Indexed ops scanner) : Indexed ops (step powf scanner event) := by
  have rebuilt := indexed_rebuildIndex ops scanner indexed.coherent
  cases event with
  | cache op =>
      exact ⟨PairIndex.coherent_step powf ops scanner.poolCache op (among op rfl) indexed.coherent,
        indexed.paired⟩
  | vaultUpdate now poolAddr =>
      rw [step]
      rcases onVaultUpdate_state powf now scanner poolAddr with same | same
      · rw [same]
        exact indexed
      · rw [same]
        exact ⟨rebuilt.coherent, rebuilt.paired⟩
  | rebuildIndex => exact rebuilt
  | scanCrossDex now borrowAmounts => exact indexed
  | scanPair now tokenA tokenB borrowAmounts => exact indexed
  | scanCrossDex3hop now borrowAmounts => exact indexed
  | scanCyclic now borrowAmounts => exact indexed

theorem indexed_throughout (start : Instant) (events : List Event) :
    ∀ pair ∈ Runs.trace (step powf) (new PoolStateCache.new start) events,
      Indexed (cacheOps events) pair.1 := by
  apply Runs.trace_invariant
  · constructor
    · exact PairIndex.coherent_new _
    · intro address counterparts found
      rw [new, HashMap.get_empty] at found
      cases found
  · intro pair member kept
    apply indexed_step powf _ _ _ _ kept
    intro op same
    apply List.mem_filterMap.mpr
    exact ⟨pair.2, Runs.trace_input _ _ _ pair member, by rw [same]⟩

/-- The condition holds where no address is ever inserted under two pairs. -/
theorem current_of_onePair (start : Instant) (events : List Event)
    (onePair : PairIndex.OnePairPerAddress (cacheOps events)) :
    ∀ pair ∈ Runs.trace (step powf) (new PoolStateCache.new start) events,
      Current pair.1 pair.2 := by
  intro ⟨scanner, event⟩ member
  have indexed := indexed_throughout powf start events _ member
  cases event with
  | vaultUpdate now poolAddr =>
      intro counterparts pool found cached _ _ other named counterpart otherCached _
      rcases indexed.paired poolAddr counterparts found other named with
        ⟨first, second, firstIn, secondIn, firstAt, secondAt, pair⟩
      have mintsOf : ∀ address held inserted, scanner.poolCache.get address = some held →
          PairIndex.CacheOp.upsert inserted ∈ cacheOps events → inserted.poolAddress = address →
          PairIndex.mints held = PairIndex.mints inserted := by
        intro address held inserted cachedHeld among home
        rcases indexed.coherent.cached address held cachedHeld with
          ⟨-, -, last, lastIn, lastAt, same⟩
        rw [← same]
        exact onePair last inserted lastIn among (lastAt.trans home.symm)
      rw [mintsOf other counterpart second otherCached secondIn secondAt,
        mintsOf poolAddr pool first cached firstIn firstAt, pair]
  | cache op => trivial
  | rebuildIndex => trivial
  | scanCrossDex now borrowAmounts => trivial
  | scanPair now tokenA tokenB borrowAmounts => trivial
  | scanCrossDex3hop now borrowAmounts => trivial
  | scanCyclic now borrowAmounts => trivial

/-- One event, over pools cached at their own addresses. -/
theorem lawful_of_current (scanner : OpportunityScanner) (event : Event)
    (keyed : ∀ address pool, scanner.poolCache.get address = some pool →
      pool.poolAddress = address)
    (current : Current scanner event) : Lawful powf scanner event := by
  cases event with
  | cache op => trivial
  | rebuildIndex => trivial
  | scanCrossDex now borrowAmounts =>
      intro route scanned
      exact profitable_of_found powf now scanner.poolCache keyed eligible route
        (found_of_scanCrossDex powf now scanner.poolCache borrowAmounts route scanned)
  | scanPair now tokenA tokenB borrowAmounts =>
      intro route scanned
      exact profitable_of_found powf now scanner.poolCache keyed eligibleForPair route
        (found_of_scanPair powf now scanner.poolCache tokenA tokenB borrowAmounts route scanned)
  | scanCrossDex3hop now borrowAmounts =>
      intro route scanned
      exact ThreeHop.profitable_of_scan3hop powf now scanner.poolCache keyed borrowAmounts route
        scanned
  | scanCyclic now borrowAmounts =>
      intro route scanned
      exact CyclicArb.profitable_of_scanCyclic powf now scanner.poolCache keyed borrowAmounts route
        scanned
  | vaultUpdate now poolAddr =>
      intro route returned
      exact profitable_onVaultUpdate powf now scanner keyed poolAddr current route returned

/-- Over any run from an empty cache: while every counterpart still trades the pool's
pair, every route any scanner returns is closed, quoted hop by hop, and pays. -/
theorem scanners_sound (start : Instant) (events : List Event)
    (current : ∀ pair ∈ Runs.trace (step powf) (new PoolStateCache.new start) events,
      Current pair.1 pair.2) :
    ∀ pair ∈ Runs.trace (step powf) (new PoolStateCache.new start) events,
      Lawful powf pair.1 pair.2 := by
  intro pair member
  have indexed := indexed_throughout powf start events pair member
  apply lawful_of_current powf pair.1 pair.2 _ (current pair member)
  intro address pool found
  exact (indexed.coherent.cached address pool found).1

end Runs

/-! Two pools on one pair, the second inserted again with other mints after the index is
made. -/

def anchoredPool (address : Nat) (tokenB : Pubkey) (reserveB : Nat) : DexPool :=
  { PairIndex.graduatedPool wsol tokenB with
    poolAddress := .ofNat address, reserveB := reserveB }

def indexed : List Event :=
  [.cache (.upsert (anchoredPool 1 usdc (206 * 10 ^ 9))),
    .cache (.upsert (anchoredPool 2 usdc (190 * 10 ^ 9))), .rebuildIndex]

def reinserted : List Event := indexed ++ [.cache (.upsert (anchoredPool 2 usdt (190 * 10 ^ 9)))]

def plainPowf (base _exponent : Double) : Double := base

/-- The scanner after some events. -/
def after (events : List Event) : OpportunityScanner :=
  Runs.run (step plainPowf) (new PoolStateCache.new 0) events

theorem mem_trace_last (events : List Event) (event : Event) :
    (after events, event) ∈
      Runs.trace (step plainPowf) (new PoolStateCache.new 0) (events ++ [event]) := by
  rw [Runs.trace_append]
  exact List.mem_append_right _ List.mem_cons_self

/-- Some hop's tokens are not those of its cached pool. -/
def mismatched (cache : PoolStateCache) (route : RouteParams Double) : Bool :=
  route.hops.any (fun hop => (cache.get hop.pool).any (fun pool =>
    decide (PairIndex.mints pool ≠ s(hop.tokenIn, hop.tokenOut))))

/-- Pool 2 trades WSOL and USDT by then, but is sold on between WSOL and USDC. -/
theorem reinserted_counterpart_quoted :
    ¬ ∀ pair ∈ Runs.trace (step plainPowf) (new PoolStateCache.new 0)
      (reinserted ++ [.vaultUpdate 0 (.ofNat 1)]), Lawful plainPowf pair.1 pair.2 := by
  intro lawful
  have profitable := lawful _ (mem_trace_last reinserted (.vaultUpdate 0 (.ofNat 1)))
  have wrong : ((onVaultUpdate plainPowf 0 (after reinserted) (.ofNat 1)).1.any
      (mismatched (after reinserted).poolCache)) = true := by
    decide +kernel
  rcases List.any_eq_true.mp wrong with ⟨route, returned, wrong⟩
  rcases List.any_eq_true.mp wrong with ⟨hop, member, wrong⟩
  rcases (Option.any_eq_true_iff_get _ _).mp wrong with ⟨some, wrong⟩
  apply of_decide_eq_true wrong
  exact mints_of_profitable _ _ _ _ _ (profitable route returned) hop member _
    (Option.some_get some).symm

theorem scanners_sound_indexed : Lawful plainPowf (after indexed) (.vaultUpdate 0 (.ofNat 1)) := by
  apply scanners_sound plainPowf 0 (indexed ++ [.vaultUpdate 0 (.ofNat 1)]) _
    (after indexed, .vaultUpdate 0 (.ofNat 1)) (mem_trace_last indexed _)
  apply current_of_onePair
  intro first second firstIn secondIn _
  simp only [cacheOps, indexed, List.cons_append, List.nil_append, List.filterMap_cons,
    List.filterMap_nil, List.mem_cons, List.not_mem_nil, or_false,
    PairIndex.CacheOp.upsert.injEq] at firstIn secondIn
  have pairOf : ∀ address reserveB,
      PairIndex.mints (anchoredPool address usdc reserveB) = s(wsol, usdc) := fun _ _ => rfl
  rcases firstIn with rfl | rfl
  · rcases secondIn with rfl | rfl
    · rfl
    · rw [pairOf, pairOf]
  · rcases secondIn with rfl | rfl
    · rw [pairOf, pairOf]
    · rfl

end OpportunityScanner

end Helios
