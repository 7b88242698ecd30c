import Helios.CrossDex
import Helios.EngineLoop
import Helios.KeyText
import Helios.OpportunityScanner

/-! Routes from the rows of a database. The labels and the profit are the row's, the quotes are
the cache's, and nothing compares the two. -/

namespace Helios.SqliteRouteFeed

open Machine FloatArith

/-- A row of `route_candidates`, in the columns that are used. -/
structure SqliteRouteCandidate where
  routeKey : String
  mint : String
  baseSymbol : String
  dexBuy : String
  dexSell : String
  poolBuy : String
  poolSell : String
  amountInLamports : Nat
  estimatedProfitLamports : Int
  validatedProfitLamports : Option Int

def effectiveProfit (candidate : SqliteRouteCandidate) : Int :=
  candidate.validatedProfitLamports.getD candidate.estimatedProfitLamports

def parseBaseMint (symbol : String) : Option Pubkey :=
  if symbol = "SOL" then some wsol else if symbol = "USDC" then some usdc else none

def orcaProgramId : Pubkey := .parse "whirLbMiicVdio4qvUfM5KAg6Ct8VwpYzGff3uctyCc"
def raydiumAmmV4ProgramId : Pubkey := .parse "675kPX9MHTjS2zt1qfr1NYHuzeLXfQM9H24wFSUt1Mp8"

def dexProgramId (label : String) : Option Pubkey :=
  if label = "Orca" then some orcaProgramId
  else if label = "Raydium" then some raydiumAmmV4ProgramId
  else none

def priceImpact (F : Type) [FloatArith F] (pool : DexPool) (amountIn : Nat) : F :=
  mul (div (ofNat amountIn) (ofNat (max pool.reserveA 1))) (ofNat 100)

/-- What the texts of a row stand for, and the pools they name. -/
structure Resolved where
  baseMint : Pubkey
  midMint : Pubkey
  poolBuy : Pubkey
  poolSell : Pubkey
  dexBuy : Pubkey
  dexSell : Pubkey
  buyPool : DexPool
  sellPool : DexPool

def resolve (candidate : SqliteRouteCandidate) (cache : PoolStateCache) : Option Resolved := do
  let baseMint ← parseBaseMint candidate.baseSymbol
  let midMint ← Pubkey.fromStr candidate.mint
  let poolBuy ← Pubkey.fromStr candidate.poolBuy
  let poolSell ← Pubkey.fromStr candidate.poolSell
  let dexBuy ← dexProgramId candidate.dexBuy
  let dexSell ← dexProgramId candidate.dexSell
  let buyPool ← cache.get poolBuy
  let sellPool ← cache.get poolSell
  some { baseMint, midMint, poolBuy, poolSell, dexBuy, dexSell, buyPool, sellPool }

section Routes

variable {F : Type} [FloatArith F] (powf : F → F → F)

def quotePool (now : Instant) (pool : DexPool) (tokenIn tokenOut : Pubkey) (amountIn : Nat) :
    Option Nat :=
  if tokenIn = pool.tokenA ∧ tokenOut = pool.tokenB then some (pool.quoteAToB powf now amountIn)
  else if tokenIn = pool.tokenB ∧ tokenOut = pool.tokenA then
    some (pool.quoteBToA powf now amountIn)
  else none

/-- The outputs of the two hops. -/
def roundTrip (buyAt sellAt : Instant) (resolved : Resolved) (amountIn : Nat) :
    Option (Nat × Nat) := do
  let midAmount ← quotePool powf buyAt resolved.buyPool resolved.baseMint resolved.midMint amountIn
  let finalAmount ←
    quotePool powf sellAt resolved.sellPool resolved.midMint resolved.baseMint midAmount
  some (midAmount, finalAmount)

def routeOf (candidate : SqliteRouteCandidate) (resolved : Resolved) (amounts : Nat × Nat) :
    RouteParams F :=
  { hops := [
      { pool := resolved.poolBuy
        dexProgram := resolved.dexBuy
        tokenIn := resolved.baseMint
        tokenOut := resolved.midMint
        amountOut := amounts.1
        priceImpact := priceImpact F resolved.buyPool candidate.amountInLamports },
      { pool := resolved.poolSell
        dexProgram := resolved.dexSell
        tokenIn := resolved.midMint
        tokenOut := resolved.baseMint
        amountOut := amounts.2
        priceImpact := priceImpact F resolved.sellPool amounts.1 }]
    borrowAmount := candidate.amountInLamports
    grossProfit := amounts.2 - candidate.amountInLamports
    netProfit := effectiveProfit candidate
    riskFactor := ofRat (15 / 100)
    strategy := "sqlite-feed"
    tier := 0 }

def buildRoute (buyAt sellAt : Instant) (candidate : SqliteRouteCandidate)
    (cache : PoolStateCache) : Option (RouteParams F) := do
  let resolved ← resolve candidate cache
  let amounts ← roundTrip powf buyAt sellAt resolved candidate.amountInLamports
  some (routeOf candidate resolved amounts)

/-- The programs are those of the cached pools, and the profits are what the hops bring. -/
structure Consistent (cache : PoolStateCache) (route : RouteParams F) : Prop where
  programs : ∀ hop ∈ route.hops, ∀ pool, cache.get hop.pool = some pool →
    hop.dexProgram = CrossDex.dexProgramFor pool.dexType
  gross : ∀ last ∈ route.hops.getLast?,
    (route.grossProfit : Int) = last.amountOut - route.borrowAmount ∧ 0 < route.grossProfit
  net : route.netProfit ≤ route.grossProfit

/-- The label the feed knows a DEX by. -/
def labelOf : DexType → Option String
  | .orcaWhirlpool => some "Orca"
  | .raydiumAmmV4 => some "Raydium"
  | _ => none

/-- The row's labels are the pools', and the cache pays what the row says. -/
structure Agrees (candidate : SqliteRouteCandidate) (resolved : Resolved) (amounts : Nat × Nat) :
    Prop where
  buyLabel : labelOf resolved.buyPool.dexType = some candidate.dexBuy
  sellLabel : labelOf resolved.sellPool.dexType = some candidate.dexSell
  gains : candidate.amountInLamports < amounts.2
  backed : effectiveProfit candidate ≤ (amounts.2 : Int) - candidate.amountInLamports

theorem dexProgramId_eq_iff (label : String) (program : Pubkey) (dex : DexType)
    (known : dexProgramId label = some program) :
    program = CrossDex.dexProgramFor dex ↔ labelOf dex = some label := by
  rw [dexProgramId] at known
  split at known
  · next orca =>
      rw [Option.some.injEq] at known
      have own : orcaProgramId = CrossDex.dexProgramFor .orcaWhirlpool := by
        rw [orcaProgramId, CrossDex.dexProgramFor, DexPrograms.orcaWhirlpool]
      rw [← known, own, CrossDex.dexProgramFor_inj, orca]
      cases dex <;> simp [labelOf]
  · split at known
    · next raydium =>
        rw [Option.some.injEq] at known
        have own : raydiumAmmV4ProgramId = CrossDex.dexProgramFor .raydiumAmmV4 := by
          rw [raydiumAmmV4ProgramId, CrossDex.dexProgramFor, DexPrograms.raydiumAmmV4]
        rw [← known, own, CrossDex.dexProgramFor_inj, raydium]
        cases dex <;> simp [labelOf]
    · cases known

/-- A row is resolved to the programs of its labels and to pools of the cache. -/
theorem resolve_spec (candidate : SqliteRouteCandidate) (cache : PoolStateCache)
    (resolved : Resolved) (found : resolve candidate cache = some resolved) :
    dexProgramId candidate.dexBuy = some resolved.dexBuy ∧
      dexProgramId candidate.dexSell = some resolved.dexSell ∧
      cache.get resolved.poolBuy = some resolved.buyPool ∧
      cache.get resolved.poolSell = some resolved.sellPool := by
  simp only [resolve, Option.bind_eq_bind, Option.bind_eq_some_iff] at found
  rcases found with ⟨base, -, mid, -, buy, -, sell, -, buyProgram, one, sellProgram, two, held,
    first, other, second, same⟩
  cases same
  exact ⟨one, two, first, second⟩

theorem routeOf_consistent_iff (candidate : SqliteRouteCandidate) (cache : PoolStateCache)
    (resolved : Resolved) (amounts : Nat × Nat) (found : resolve candidate cache = some resolved) :
    Consistent cache (routeOf candidate resolved amounts : RouteParams F) ↔
      Agrees candidate resolved amounts := by
  rcases resolve_spec candidate cache resolved found with ⟨buyKnown, sellKnown, buyHeld, sellHeld⟩
  constructor
  · intro consistent
    have gross := consistent.gross _ rfl
    have net := consistent.net
    simp only [routeOf, List.getLast_cons_cons, List.getLast_singleton] at gross net
    refine ⟨?_, ?_, by omega, by omega⟩
    · rw [← dexProgramId_eq_iff _ _ _ buyKnown]
      exact consistent.programs _ List.mem_cons_self _ buyHeld
    · rw [← dexProgramId_eq_iff _ _ _ sellKnown]
      exact consistent.programs _ (List.mem_cons_of_mem _ List.mem_cons_self) _ sellHeld
  · rintro ⟨buyLabel, sellLabel, gains, backed⟩
    constructor
    · simp only [routeOf, List.forall_mem_cons, List.not_mem_nil, false_imp_iff, implies_true,
        and_true]
      rw [buyHeld, sellHeld]
      constructor
      · rintro pool ⟨⟩
        exact (dexProgramId_eq_iff _ _ _ buyKnown).mpr buyLabel
      · rintro pool ⟨⟩
        exact (dexProgramId_eq_iff _ _ _ sellKnown).mpr sellLabel
    · rintro last ⟨⟩
      simp only [routeOf, List.getLast_cons_cons, List.getLast_singleton]
      omega
    · simp only [routeOf]
      omega

theorem buildRoute_eq_some_iff (buyAt sellAt : Instant) (candidate : SqliteRouteCandidate)
    (cache : PoolStateCache) (route : RouteParams F) :
    buildRoute powf buyAt sellAt candidate cache = some route ↔
      ∃ resolved amounts, resolve candidate cache = some resolved ∧
        roundTrip powf buyAt sellAt resolved candidate.amountInLamports = some amounts ∧
          routeOf candidate resolved amounts = route := by
  constructor
  · intro built
    rcases Option.bind_eq_some_iff.mp built with ⟨resolved, found, later⟩
    rcases Option.bind_eq_some_iff.mp later with ⟨amounts, quoted, same⟩
    exact ⟨resolved, amounts, found, quoted, Option.some.inj same⟩
  · rintro ⟨resolved, amounts, found, quoted, same⟩
    rw [buildRoute, found]
    dsimp only [Option.bind_eq_bind, Option.bind_some]
    rw [quoted, ← same]
    rfl

/-- What a row makes of a cache is consistent exactly if the two agree. -/
theorem built_consistent_iff (buyAt sellAt : Instant) (candidate : SqliteRouteCandidate)
    (cache : PoolStateCache) :
    (∀ route, buildRoute powf buyAt sellAt candidate cache = some route →
        Consistent cache route) ↔
      ∀ resolved amounts, resolve candidate cache = some resolved →
        roundTrip powf buyAt sellAt resolved candidate.amountInLamports = some amounts →
          Agrees candidate resolved amounts := by
  constructor
  · intro consistent resolved amounts found quoted
    have built := (buildRoute_eq_some_iff powf buyAt sellAt candidate cache _).mpr
      ⟨resolved, amounts, found, quoted, rfl⟩
    exact (routeOf_consistent_iff candidate cache resolved amounts found).mp (consistent _ built)
  · intro agrees route built
    rcases (buildRoute_eq_some_iff powf buyAt sellAt candidate cache route).mp built with
      ⟨resolved, amounts, found, quoted, same⟩
    rw [← same]
    exact (routeOf_consistent_iff candidate cache resolved amounts found).mpr
      (agrees resolved amounts found quoted)

/-! The loop of the feed. -/

structure Settings where
  cooldown : Nat
  minProfit : Int

/-- A row, and what the loop finds when it comes to it. -/
structure Look where
  candidate : SqliteRouteCandidate
  now : Instant
  cache : PoolStateCache
  buyAt : Instant
  sellAt : Instant

/-- What is sent to the executor, without the score. -/
structure Bundle (F : Type) where
  id : Nat
  route : RouteParams F
  flashProvider : FlashProvider

structure Feed (F : Type) where
  nextId : Nat
  lastSentAt : HashMap String Instant
  sent : List (Bundle F)

def Feed.new : Feed F := ⟨10000000, HashMap.empty, []⟩

def fallbackProvider (borrowMint : Option Pubkey) : FlashProvider :=
  match borrowMint with
  | none => .marginFi
  | some mint =>
      if mint.display = "EPjFWdd5AufqSSqeM2qN1xzybapC8G4wEGGkZwyTDt1v" then .solend else .marginFi

def coolingDown (settings : Settings) (feed : Feed F) (look : Look) : Bool :=
  match HashMap.get feed.lastSentAt look.candidate.routeKey with
  | none => false
  | some prev => decide (look.now - prev < settings.cooldown)

/-- The route of a row that is not passed over. -/
def considered (settings : Settings) (feed : Feed F) (look : Look) :
    Option (Look × RouteParams F) :=
  if effectiveProfit look.candidate < settings.minProfit then none
  else if coolingDown settings feed look then none
  else (buildRoute powf look.buyAt look.sellAt look.candidate look.cache).map (fun route =>
    (look, route))

/-- One pass of the loop: the first route made is sent. A query that fails brings no rows. -/
def poll (settings : Settings) (feed : Feed F) (looks : Option (List Look)) : Feed F :=
  match (looks.getD []).findSome? (considered powf settings feed) with
  | none => feed
  | some (look, route) =>
      let flashProvider :=
        match FlashSelector.select route.borrowAmount with
        | some provider => provider
        | none => fallbackProvider (route.hops.head?.map Hop.tokenIn)
      { nextId := saturatingAdd64 feed.nextId 1
        lastSentAt := feed.lastSentAt.insert look.candidate.routeKey look.now
        sent := feed.sent ++ [⟨feed.nextId, route, flashProvider⟩] }

/-- A route made from a row of a pass, whose stored profit is enough. -/
def MadeFrom (settings : Settings) (looks : Option (List Look)) (route : RouteParams F) : Prop :=
  ∃ look ∈ looks.getD [], settings.minProfit ≤ effectiveProfit look.candidate ∧
    buildRoute powf look.buyAt look.sellAt look.candidate look.cache = some route

theorem sent_poll (settings : Settings) (feed : Feed F) (looks : Option (List Look))
    (bundle : Bundle F) (member : bundle ∈ (poll powf settings feed looks).sent) :
    bundle ∈ feed.sent ∨ MadeFrom powf settings looks bundle.route := by
  rw [poll] at member
  split at member
  · exact Or.inl member
  · next look route found =>
      rcases List.mem_append.mp member with old | new
      · exact Or.inl old
      · right
        rw [List.mem_singleton.mp new]
        rcases List.exists_of_findSome?_eq_some found with ⟨other, inRows, passed⟩
        rw [considered, Option.ite_none_left_eq_some, Option.ite_none_left_eq_some] at passed
        rcases Option.map_eq_some_iff.mp passed.2.2 with ⟨made, built, same⟩
        cases same
        exact ⟨look, inRows, not_lt.mp passed.1, built⟩

/-- Whatever is sent in a run was made from a row of one of its passes. -/
theorem sent_run (settings : Settings) (passes : List (Option (List Look))) (feed : Feed F)
    (bundle : Bundle F) (member : bundle ∈ (Runs.run (poll powf settings) feed passes).sent) :
    bundle ∈ feed.sent ∨ ∃ looks ∈ passes, MadeFrom powf settings looks bundle.route := by
  induction passes generalizing feed with
  | nil => exact Or.inl member
  | cons looks rest ih =>
      rw [Runs.run_cons] at member
      rcases ih (poll powf settings feed looks) member with before | ⟨later, inRest, made⟩
      · rcases sent_poll powf settings feed looks bundle before with old | made
        · exact Or.inl old
        · exact Or.inr ⟨looks, List.mem_cons_self, made⟩
      · exact Or.inr ⟨later, List.mem_cons_of_mem _ inRest, made⟩

/-- A row agrees with the cache it is looked up in. -/
def LookAgrees (look : Look) : Prop :=
  ∀ resolved amounts, resolve look.candidate look.cache = some resolved →
    roundTrip powf look.buyAt look.sellAt resolved look.candidate.amountInLamports = some amounts →
      Agrees look.candidate resolved amounts

/-- In a run whose rows agree with the cache, what reaches the executor is consistent, and its
net profit is at least the minimum. -/
theorem consistent_run (settings : Settings) (passes : List (Option (List Look)))
    (agree : ∀ looks ∈ passes, ∀ look ∈ looks.getD [], LookAgrees powf look) (bundle : Bundle F)
    (member : bundle ∈ (Runs.run (poll powf settings) Feed.new passes).sent) :
    settings.minProfit ≤ bundle.route.netProfit ∧
      ∃ looks ∈ passes, ∃ look ∈ looks.getD [], Consistent look.cache bundle.route := by
  rcases sent_run powf settings passes Feed.new bundle member with old | ⟨looks, inRun, made⟩
  · cases old
  · rcases made with ⟨look, inRows, enough, built⟩
    rcases (buildRoute_eq_some_iff powf _ _ _ _ _).mp built with
      ⟨resolved, amounts, found, quoted, same⟩
    rw [← same]
    refine ⟨enough, looks, inRun, look, inRows, ?_⟩
    exact (routeOf_consistent_iff look.candidate look.cache resolved amounts found).mpr
      (agree looks inRun look inRows resolved amounts found quoted)

end Routes

/-! Two PumpSwap pools of one price, and a row that promises 5,000,000 lamports between them. -/

def levelCache : PoolStateCache :=
  (PoolStateCache.new.upsert (OpportunityScanner.anchoredPool 1 usdc (206 * 10 ^ 9))).upsert
    (OpportunityScanner.anchoredPool 2 usdc (206 * 10 ^ 9))

def promisingRow : SqliteRouteCandidate :=
  { routeKey := "level", mint := usdc.display, baseSymbol := "SOL"
    dexBuy := "Raydium", dexSell := "Orca"
    poolBuy := (Pubkey.ofNat 1).display, poolSell := (Pubkey.ofNat 2).display
    amountInLamports := 1000000000, estimatedProfitLamports := 5000000
    validatedProfitLamports := none }

def promisingResolved : Resolved :=
  { baseMint := wsol, midMint := usdc, poolBuy := .ofNat 1, poolSell := .ofNat 2
    dexBuy := raydiumAmmV4ProgramId, dexSell := orcaProgramId
    buyPool := OpportunityScanner.anchoredPool 1 usdc (206 * 10 ^ 9)
    sellPool := OpportunityScanner.anchoredPool 2 usdc (206 * 10 ^ 9) }

theorem promisingRow_resolved : resolve promisingRow levelCache = some promisingResolved := by
  have first : levelCache.get (.ofNat 1) =
      some (OpportunityScanner.anchoredPool 1 usdc (206 * 10 ^ 9)) := rfl
  have second : levelCache.get (.ofNat 2) =
      some (OpportunityScanner.anchoredPool 2 usdc (206 * 10 ^ 9)) := rfl
  simp [resolve, promisingRow, parseBaseMint, dexProgramId, Pubkey.fromStr_display, first, second,
    promisingResolved]

/-- The trip loses 29,472,017 lamports, and the route says that it nets 5,000,000. -/
theorem promised_profit_forwarded :
    ¬ ∀ route, buildRoute OpportunityScanner.plainPowf 0 0 promisingRow levelCache = some route →
      Consistent levelCache route := by
  have quoted : roundTrip OpportunityScanner.plainPowf 0 0 promisingResolved 1000000000 =
      some (2568642770, 970527983) := by
    decide +kernel
  intro consistent
  have built := (buildRoute_eq_some_iff OpportunityScanner.plainPowf 0 0 promisingRow levelCache
    _).mpr ⟨promisingResolved, (2568642770, 970527983), promisingRow_resolved, quoted, rfl⟩
  have agrees := (routeOf_consistent_iff promisingRow levelCache promisingResolved
    (2568642770, 970527983) promisingRow_resolved).mp (consistent _ built)
  exact absurd agrees.gains (by decide)

end Helios.SqliteRouteFeed
