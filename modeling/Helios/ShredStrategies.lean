import Helios.BestBorrow
import Helios.CrossDex
import Helios.SignalProcessor

/-! The back-runs on swaps seen in shreds. Of the two pools the token is bought where less of it
is quoted, and the programs of the hops come from a table of its own. -/

namespace Helios.ShredStrategies

open Machine FloatArith OpportunityScanner SwapDecoder

def borrowAmounts : List Nat := [100000000, 500000000, 1000000000]
def minSpreadBps : Nat := 60
def maxSpreadBps : Nat := 5000
def minImpactBps : Nat := 50
/-- The estimate of fee and tip. -/
def txCost : Nat := 15000
def minNet : Int := 5000
def topRoutes : Nat := 3

/-- The key for Meteora differs from the program's in its last characters. -/
def dexProgram : DexType → Pubkey
  | .raydiumAmmV4 => .parse "675kPX9MHTjS2zt1qfr1NYHuzeLXfQM9H24wFSUt1Mp8"
  | .pumpSwap => .parse "pAMMBay6oceH9fJKBRHGP5D4bD4sWpmSwMn52FMfXEA"
  | .orcaWhirlpool => .parse "whirLbMiicVdio4qvUfM5KAg6Ct8VwpYzGff3uctyCc"
  | .meteoraDlmm => .parse "LBUZKhRxPF3XUpBCjp4YzTKgLLjgGmGuiVkdseHQcpS"
  | .raydiumClmm => .parse "CAMMCzo5YL8w4VFF8KVHrK22GGUsp5VTaW7grrKgrWqK"
  | _ => default

section Backrun

variable {F : Type} [FloatArith F] (powf : F → F → F) (now : Instant)

/-- What the swap pays in, in basis points of the reserve it pays into. -/
def impactBps (F : Type) [FloatArith F] (now : Instant) (pool : DexPool) (swap : DetectedSwap) : F :=
  let reserves := pool.effectiveReserves now
  mul (div (ofNat swap.amountIn) (ofNat (if swap.aToB then reserves.1 else reserves.2)))
    (ofNat 10000)

/-- The swapped pool with its anchor and its other token, if the swap passes the early filters. -/
def displaced (F : Type) [FloatArith F] (now : Instant) (cache : PoolStateCache)
    (swap : DetectedSwap) : Option (DexPool × Pubkey × Pubkey) := do
  let pool ← cache.get swap.pool
  let reserves := pool.effectiveReserves now
  if reserves.1 = 0 ∨ reserves.2 = 0 then none
  else if lt (impactBps F now pool swap) (ofNat minImpactBps) then none
  else (anchorOf pool).map (fun tokens => (pool, tokens))

def counterparts (cache : PoolStateCache) (swap : DetectedSwap) (anchor meme : Pubkey) :
    List DexPool :=
  (cache.poolsForToken meme).filter (fun p => decide (p.poolAddress ≠ swap.pool ∧
    0 < p.reserveA ∧ 0 < p.reserveB ∧ (p.tokenA = anchor ∨ p.tokenB = anchor)))

/-- What each pool gives of the token; the quotes are those of the vault scanner. -/
def compareRates (poolA poolB : DexPool) (anchor : Pubkey) (amount : Nat) : Nat × Nat :=
  (quoteBuy powf now poolA anchor amount, quoteBuy powf now poolB anchor amount)

/-- The swapped pool gives more than the counterpart. -/
def ownGivesMore (pool cp : DexPool) (anchor : Pubkey) (borrow : Nat) : Bool :=
  let rates := compareRates powf now pool cp anchor borrow
  decide (rates.2 < rates.1)

/-- The pools to buy and to sell on: where this one gives more, it is sold on. -/
def sidesTaken (pool cp : DexPool) (anchor : Pubkey) (borrow : Nat) : DexPool × DexPool :=
  if ownGivesMore powf now pool cp anchor borrow then (cp, pool) else (pool, cp)

def net (gross : Nat) : Int := wrapI64 (wrapI64 gross - (txCost : Nat))

def spreadInside (F : Type) [FloatArith F] (borrow sellOut : Nat) : Bool :=
  let spread : F := mul (sub (div (ofNat sellOut) (ofNat borrow)) (ofNat 1)) (ofNat 10000)
  !lt spread (ofNat minSpreadBps) && !lt (ofNat maxSpreadBps) spread

/-- Both quotes of a round trip. -/
def trip (pools : DexPool × DexPool) (anchor : Pubkey) (borrow : Nat) : Nat × Nat :=
  let buyOut := quoteBuy powf now pools.1 anchor borrow
  (buyOut, quoteSell powf now pools.2 anchor buyOut)

/-- None of the tests of the loop says to go on to the next amount. -/
def passes (pool cp : DexPool) (anchor : Pubkey) (borrow : Nat) : Bool :=
  let rates := compareRates powf now pool cp anchor borrow
  let (buyOut, sellOut) := trip powf now (sidesTaken powf now pool cp anchor borrow) anchor borrow
  decide (rates.1 ≠ 0 ∧ rates.2 ≠ 0 ∧ buyOut ≠ 0 ∧ sellOut ≠ 0 ∧ borrow < sellOut ∧
    minNet ≤ net (sellOut - borrow)) && spreadInside F borrow sellOut

/-- The route of an amount that passes, if both pools are found in the cache. -/
def routeAt (cache : PoolStateCache) (swap : DetectedSwap) (pool : DexPool) (anchor meme : Pubkey)
    (cp : DexPool) (borrow : Nat) : Option (RouteParams F) :=
  let own := ownGivesMore powf now pool cp anchor borrow
  let buyPool := if own then cp.poolAddress else swap.pool
  let sellPool := if own then swap.pool else cp.poolAddress
  let (buyOut, sellOut) := trip powf now (sidesTaken powf now pool cp anchor borrow) anchor borrow
  match cache.get buyPool, cache.get sellPool with
  | some bp, some sp =>
      some {
        hops := [
          { pool := buyPool
            dexProgram := dexProgram bp.dexType
            tokenIn := anchor
            tokenOut := meme
            amountOut := buyOut
            priceImpact := div (impactBps F now pool swap) (ofNat 100) },
          { pool := sellPool
            dexProgram := dexProgram sp.dexType
            tokenIn := meme
            tokenOut := anchor
            amountOut := sellOut
            priceImpact := ofNat 0 }]
        borrowAmount := borrow
        grossProfit := sellOut - borrow
        netProfit := net (sellOut - borrow)
        riskFactor := ofRat (2 / 10)
        strategy := "shred_backrun"
        tier := 1 }
  | _, _ => none

/-- The first amount that passes ends the loop, with or without a route. -/
def counterpartRoute (cache : PoolStateCache) (swap : DetectedSwap) (pool : DexPool)
    (anchor meme : Pubkey) (cp : DexPool) : Option (RouteParams F) :=
  (borrowAmounts.find? (passes powf now pool cp anchor)).bind
    (routeAt powf now cache swap pool anchor meme cp)

/-- The routes before they are cut down to three. -/
def routesFound (cache : PoolStateCache) (swap : DetectedSwap) : List (RouteParams F) :=
  match displaced F now cache swap with
  | none => []
  | some (pool, anchor, meme) =>
      (counterparts cache swap anchor meme).filterMap
        (counterpartRoute powf now cache swap pool anchor meme)

def onSwapDetected (cache : PoolStateCache) (swap : DetectedSwap) : List (RouteParams F) :=
  ((routesFound powf now cache swap).mergeSort
    (fun a b => decide (b.netProfit ≤ a.netProfit))).take topRoutes

/-! The program table against the one it should invert. -/

def Listed (dex : DexType) : Prop :=
  dex ∈ [DexType.raydiumAmmV4, .pumpSwap, .orcaWhirlpool, .raydiumClmm, .unknown]

instance (dex : DexType) : Decidable (Listed dex) :=
  inferInstanceAs (Decidable (dex ∈ [DexType.raydiumAmmV4, .pumpSwap, .orcaWhirlpool,
    .raydiumClmm, .unknown]))

/-- The table's Meteora is the program of no DEX, -/
theorem meteora_unknown : DexType.fromProgramId (dexProgram .meteoraDlmm) = .unknown := by
  have number : (dexProgram .meteoraDlmm).toNat =
      2222480940325335872388304432163824986101655272030826935808385496626487610083 := by
    decide +kernel
  apply CrossDex.fromProgramId_unknown
  intro dex _ same
  have shared := congrArg Pubkey.toNat same
  rw [number, CrossDex.toNat_dexProgramFor] at shared
  cases dex <;> exact absurd shared (by decide)

/-- and the others it leaves out share the key of no program. -/
theorem unknown_of_unlisted (dex : DexType) (unlisted : ¬Listed dex) :
    DexType.fromProgramId (dexProgram dex) = .unknown := by
  cases dex with
  | meteoraDlmm => exact meteora_unknown
  | fluxbeam => exact CrossDex.fromProgramId_dexProgramFor .unknown
  | saber => exact CrossDex.fromProgramId_dexProgramFor .unknown
  | raydiumCpmm => exact CrossDex.fromProgramId_dexProgramFor .unknown
  | raydiumAmmV4 => exact absurd (by decide) unlisted
  | raydiumClmm => exact absurd (by decide) unlisted
  | orcaWhirlpool => exact absurd (by decide) unlisted
  | pumpSwap => exact absurd (by decide) unlisted
  | unknown => exact absurd (by decide) unlisted

theorem dexProgram_of_listed (dex : DexType) (listed : Listed dex) :
    dexProgram dex = CrossDex.dexProgramFor dex := by
  cases dex with
  | raydiumAmmV4 => exact rfl
  | raydiumClmm => rfl
  | orcaWhirlpool => rfl
  | pumpSwap => rfl
  | unknown => rfl
  | meteoraDlmm => exact absurd listed (by decide)
  | fluxbeam => exact absurd listed (by decide)
  | saber => exact absurd listed (by decide)
  | raydiumCpmm => exact absurd listed (by decide)

theorem fromProgramId_dexProgram_iff (dex : DexType) :
    DexType.fromProgramId (dexProgram dex) = dex ↔ Listed dex := by
  constructor
  · intro same
    by_contra unlisted
    rw [unknown_of_unlisted dex unlisted] at same
    rw [← same] at unlisted
    exact unlisted (by decide)
  · intro listed
    rw [dexProgram_of_listed dex listed]
    exact CrossDex.fromProgramId_dexProgramFor dex

/-! What a counterpart pays, in the direction asked for and in the one taken. -/

/-- A round trip that nets the minimum, with its spread inside the limits. -/
def Pays (pools : DexPool × DexPool) (anchor : Pubkey) (borrow : Nat) : Prop :=
  borrow + txCost + 5000 ≤ BestBorrow.tripOut powf now pools anchor borrow ∧
    spreadInside F borrow (BestBorrow.tripOut powf now pools anchor borrow) = true

/-- Some amount pays when the token is bought in the pool that quotes more of it. -/
def HighPays (pool cp : DexPool) (anchor : Pubkey) : Prop :=
  ∃ borrow ∈ borrowAmounts, ∃ buyOwn,
    quoteBuy powf now (BestBorrow.sides pool cp buyOwn).2 anchor borrow <
        quoteBuy powf now (BestBorrow.sides pool cp buyOwn).1 anchor borrow ∧
      Pays powf now (BestBorrow.sides pool cp buyOwn) anchor borrow

/-- Some amount passes when the token is bought in the pool that quotes no more of it. -/
def LowPays (pool cp : DexPool) (anchor : Pubkey) : Prop :=
  ∃ borrow ∈ borrowAmounts, passes powf now pool cp anchor borrow = true

section Found

variable (cache : PoolStateCache) (swap : DetectedSwap) (pool : DexPool) (anchor meme : Pubkey)

/-- The amount a counterpart's route is made with. -/
def chosen (cp : DexPool) : Option Nat :=
  if (cache.get cp.poolAddress).isSome then
    borrowAmounts.find? (passes powf now pool cp anchor)
  else none

theorem chosen_isSome_iff (cp : DexPool) :
    (chosen powf now cache pool anchor cp).isSome = true ↔
      LowPays powf now pool cp anchor ∧ (cache.get cp.poolAddress).isSome = true := by
  rw [chosen]
  split
  · next cached =>
      rw [List.find?_isSome, LowPays]
      exact ⟨fun some_ => ⟨some_, cached⟩, fun both => both.1⟩
  · next absent =>
      constructor
      · intro found
        cases found
      · intro both
        exact absurd both.2 absent

def dexAt (address : Pubkey) : DexType := ((cache.get address).map DexPool.dexType).getD .unknown

def netAt (taken : DexPool × Nat) : Int :=
  net ((trip powf now (sidesTaken powf now pool taken.1 anchor taken.2) anchor taken.2).2 - taken.2)

/-- The route over a counterpart with an amount. -/
def routeOf (taken : DexPool × Nat) : RouteParams F :=
  let own := ownGivesMore powf now pool taken.1 anchor taken.2
  let buyPool := if own then taken.1.poolAddress else swap.pool
  let sellPool := if own then swap.pool else taken.1.poolAddress
  let quotes := trip powf now (sidesTaken powf now pool taken.1 anchor taken.2) anchor taken.2
  { hops := [
      { pool := buyPool
        dexProgram := dexProgram (dexAt cache buyPool)
        tokenIn := anchor
        tokenOut := meme
        amountOut := quotes.1
        priceImpact := div (impactBps F now pool swap) (ofNat 100) },
      { pool := sellPool
        dexProgram := dexProgram (dexAt cache sellPool)
        tokenIn := meme
        tokenOut := anchor
        amountOut := quotes.2
        priceImpact := ofNat 0 }]
    borrowAmount := taken.2
    grossProfit := quotes.2 - taken.2
    netProfit := net (quotes.2 - taken.2)
    riskFactor := ofRat (2 / 10)
    strategy := "shred_backrun"
    tier := 1 }

theorem netProfit_routeOf (taken : DexPool × Nat) :
    (routeOf powf now cache swap pool anchor meme taken).netProfit =
      netAt powf now pool anchor taken := by
  rw [routeOf, netAt]

theorem counterpartRoute_eq (own : cache.get swap.pool = some pool) (cp : DexPool) :
    counterpartRoute powf now cache swap pool anchor meme cp =
      (chosen powf now cache pool anchor cp).map
        (fun borrow => routeOf powf now cache swap pool anchor meme (cp, borrow)) := by
  rw [counterpartRoute, chosen]
  cases cached : cache.get cp.poolAddress with
  | none =>
      rw [Option.isSome_none, if_neg Bool.false_ne_true]
      cases borrowAmounts.find? (passes powf now pool cp anchor) with
      | none => rfl
      | some borrow =>
          rw [Option.bind_some, routeAt]
          cases ownGivesMore powf now pool cp anchor borrow with
          | false => simp [cached]
          | true => simp [cached]
  | some held =>
      rw [Option.isSome_some, if_pos rfl]
      cases borrowAmounts.find? (passes powf now pool cp anchor) with
      | none => rfl
      | some borrow =>
          rw [Option.bind_some, Option.map_some, routeAt, routeOf]
          cases ownGivesMore powf now pool cp anchor borrow with
          | false => simp [cached, own, dexAt]
          | true => simp [cached, own, dexAt]

/-- The counterparts a route is made over, with their amounts. -/
def candidates : List (DexPool × Nat) :=
  (counterparts cache swap anchor meme).filterMap (fun cp =>
    (chosen powf now cache pool anchor cp).map (fun borrow => (cp, borrow)))

/-- The three that net most. -/
def best : List (DexPool × Nat) :=
  ((candidates powf now cache swap pool anchor meme).mergeSort (fun a b =>
    decide (netAt powf now pool anchor b ≤ netAt powf now pool anchor a))).take topRoutes

variable (passed : displaced F now cache swap = some (pool, anchor, meme))
include passed

theorem own_of_displaced : cache.get swap.pool = some pool := by
  rcases Option.bind_eq_some_iff.mp passed with ⟨held, cached, later⟩
  dsimp only at later
  rw [Option.ite_none_left_eq_some, Option.ite_none_left_eq_some] at later
  rcases Option.map_eq_some_iff.mp later.2.2 with ⟨tokens, -, same⟩
  cases same
  exact cached

theorem onSwapDetected_eq :
    onSwapDetected powf now cache swap =
      (best powf now cache swap pool anchor meme).map
        (routeOf powf now cache swap pool anchor meme) := by
  have own := own_of_displaced now cache swap pool anchor meme passed
  have found : routesFound powf now cache swap =
      (candidates powf now cache swap pool anchor meme).map
        (routeOf powf now cache swap pool anchor meme) := by
    rw [routesFound, passed]
    dsimp only
    rw [candidates, List.map_filterMap]
    apply List.filterMap_congr
    intro cp _
    rw [counterpartRoute_eq powf now cache swap pool anchor meme own, Option.map_map]
    rfl
  rw [onSwapDetected, found, best, List.map_take, ← List.map_mergeSort]
  intro a _ b _
  rw [netProfit_routeOf, netProfit_routeOf]

/-- The programs of a route are right exactly if the table lists the DEXes of both pools. -/
theorem programs_iff (taken : DexPool × Nat) :
    (∀ hop ∈ (routeOf powf now cache swap pool anchor meme taken).hops, ∀ held,
      cache.get hop.pool = some held → DexType.fromProgramId hop.dexProgram = held.dexType) ↔
    Listed pool.dexType ∧
      ∀ held, cache.get taken.1.poolAddress = some held → Listed held.dexType := by
  have own := own_of_displaced now cache swap pool anchor meme passed
  have at_ : ∀ address, (∀ held, cache.get address = some held →
      DexType.fromProgramId (dexProgram (dexAt cache address)) = held.dexType) ↔
        ∀ held, cache.get address = some held → Listed held.dexType := by
    intro address
    refine forall₂_congr (fun held cached => ?_)
    rw [dexAt, cached, Option.map_some, Option.getD_some, fromProgramId_dexProgram_iff]
  have ownAt : (∀ held, cache.get swap.pool = some held → Listed held.dexType) ↔
      Listed pool.dexType := by
    rw [own]
    simp
  simp only [routeOf, List.forall_mem_cons, List.not_mem_nil, false_imp_iff, implies_true, and_true]
  rw [at_, at_]
  cases ownGivesMore powf now pool taken.1 anchor taken.2 with
  | false =>
      simp only [Bool.false_eq_true, if_false]
      rw [ownAt]
  | true =>
      simp only [if_true]
      rw [ownAt, and_comm]

/-- Every counterpart that pays has a route and the programs are right exactly if each of them
also passes the other way round, and the pools of the three best are of DEXes in the table. -/
theorem backruns_hold_iff :
    ((∀ cp ∈ counterparts cache swap anchor meme, HighPays powf now pool cp anchor →
        (counterpartRoute powf now cache swap pool anchor meme cp).isSome = true) ∧
      ∀ route ∈ onSwapDetected powf now cache swap, ∀ hop ∈ route.hops, ∀ held,
        cache.get hop.pool = some held →
          DexType.fromProgramId hop.dexProgram = held.dexType) ↔
    (∀ cp ∈ counterparts cache swap anchor meme, HighPays powf now pool cp anchor →
        LowPays powf now pool cp anchor ∧ (cache.get cp.poolAddress).isSome = true) ∧
      ∀ taken ∈ best powf now cache swap pool anchor meme, Listed pool.dexType ∧
        ∀ held, cache.get taken.1.poolAddress = some held → Listed held.dexType := by
  have own := own_of_displaced now cache swap pool anchor meme passed
  refine and_congr ?_ ?_
  · refine forall₂_congr (fun cp _ => imp_congr_right (fun _ => ?_))
    rw [counterpartRoute_eq powf now cache swap pool anchor meme own, Option.isSome_map,
      chosen_isSome_iff]
  · rw [onSwapDetected_eq powf now cache swap pool anchor meme passed, List.forall_mem_map]
    exact forall₂_congr (fun taken _ =>
      programs_iff powf now cache swap pool anchor meme passed taken)

end Found

/-- Between constant-product pools the direction taken never passes. -/
theorem low_never_pays (pool cp : DexPool) (anchor : Pubkey)
    (plain : ∀ held ∈ [pool, cp], held.IsXyK ∧ held.feeBps ≤ 10000 ∧
      (held.effectiveReserves now).1 < 2 ^ 64 ∧ (held.effectiveReserves now).2 < 2 ^ 64) :
    ¬LowPays powf now pool cp anchor := by
  intro ⟨borrow, member, passed⟩
  have small : borrow < 2 ^ 64 := by
    have each : ∀ borrow ∈ borrowAmounts, borrow < 2 ^ 64 := by decide
    exact each borrow member
  have gains : borrow < (trip powf now (sidesTaken powf now pool cp anchor borrow) anchor borrow).2 := by
    simp only [passes, Bool.and_eq_true, decide_eq_true_eq] at passed
    exact passed.1.2.2.2.2.1
  rw [sidesTaken] at gains
  cases more : ownGivesMore powf now pool cp anchor borrow with
  | true =>
      rcases plain pool List.mem_cons_self with ⟨xyk, fee, smallA, smallB⟩
      have less : quoteBuy powf now cp anchor borrow ≤ quoteBuy powf now pool anchor borrow :=
        (of_decide_eq_true more).le
      have bound := BestBorrow.quoteSell_le pool anchor borrow _ xyk fee smallA smallB small less
      rw [more, if_pos rfl, trip] at gains
      exact absurd gains (not_lt.mpr bound)
  | false =>
      rcases plain cp (List.mem_cons_of_mem _ List.mem_cons_self) with ⟨xyk, fee, smallA, smallB⟩
      have less : quoteBuy powf now pool anchor borrow ≤ quoteBuy powf now cp anchor borrow :=
        not_lt.mp (of_decide_eq_false more)
      have bound := BestBorrow.quoteSell_le cp anchor borrow _ xyk fee smallA smallB small less
      rw [more, if_neg Bool.false_ne_true, trip] at gains
      exact absurd gains (not_lt.mpr bound)

end Backrun

/-! The two pools 8 % apart, and a swap of one tenth of the reserve on the deeper one. -/

def spreadCache : PoolStateCache :=
  (PoolStateCache.new.upsert BestBorrow.deeper).upsert BestBorrow.thinner

def whaleSwap : DetectedSwap := ⟨.pumpSwap, .ofNat 1, 7900000000, 0, true⟩

theorem whaleSwap_displaced :
    displaced Double 0 spreadCache whaleSwap = some (BestBorrow.deeper, wsol, usdc) := by
  decide +kernel

/-- The counterpart pays, and no route is made. -/
theorem paying_counterpart_missed :
    BestBorrow.thinner ∈ counterparts spreadCache whaleSwap wsol usdc ∧
      HighPays plainPowf 0 BestBorrow.deeper BestBorrow.thinner wsol ∧
      (counterpartRoute plainPowf 0 spreadCache whaleSwap BestBorrow.deeper wsol usdc
        BestBorrow.thinner).isSome = false := by
  refine ⟨by decide +kernel, ⟨100000000, by decide, true, by decide +kernel, ?_, ?_⟩, ?_⟩
  · decide +kernel
  · decide +kernel
  · decide +kernel

theorem backruns_hold_iff_whaleSwap :
    ((∀ cp ∈ counterparts spreadCache whaleSwap wsol usdc,
        HighPays plainPowf 0 BestBorrow.deeper cp wsol →
        (counterpartRoute plainPowf 0 spreadCache whaleSwap BestBorrow.deeper wsol usdc
          cp).isSome = true) ∧
      ∀ route ∈ onSwapDetected plainPowf 0 spreadCache whaleSwap, ∀ hop ∈ route.hops, ∀ held,
        spreadCache.get hop.pool = some held →
          DexType.fromProgramId hop.dexProgram = held.dexType) ↔
    (∀ cp ∈ counterparts spreadCache whaleSwap wsol usdc,
        HighPays plainPowf 0 BestBorrow.deeper cp wsol →
        LowPays plainPowf 0 BestBorrow.deeper cp wsol ∧
          (spreadCache.get cp.poolAddress).isSome = true) ∧
      ∀ taken ∈ best plainPowf 0 spreadCache whaleSwap BestBorrow.deeper wsol usdc,
        Listed BestBorrow.deeper.dexType ∧
          ∀ held, spreadCache.get taken.1.poolAddress = some held → Listed held.dexType :=
  backruns_hold_iff plainPowf 0 spreadCache whaleSwap BestBorrow.deeper wsol usdc
    whaleSwap_displaced

end Helios.ShredStrategies
