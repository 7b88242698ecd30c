import Helios.Fallible
import Helios.PairIndex
import Helios.TickSequence

/-! Which scanned routes the builder can turn into an instruction. The scanner
and the builder ask different things of a pool. -/

namespace Helios.Executability

open CrossDex Fallible PairIndex Runs TxBuilder

/-- The failures a scanned route should never meet. -/
def LacksSupport : BuildError → Prop
  | .notYetSupported _ => True
  | .metaMissing _ => True
  | .metadataIncomplete _ _ => True
  | _ => False

/-- What the builder needs of a pool, by its DEX. -/
def supported (pool : DexPool) : Bool :=
  match pool.dexType with
  | .raydiumAmmV4 => (pool.raydiumMeta.map marketAccountsKnown).getD false
  | .orcaWhirlpool => (pool.orcaMeta.map (fun orca => decide (orca.tickSpacing ≠ 0))).getD false
  | .meteoraDlmm => pool.meteoraMeta.isSome
  | .pumpSwap => true
  | _ => false

def HopSupported {F : Type} (cache : PoolStateCache) (hop : Hop F) : Prop :=
  ∀ pool, cache.get hop.pool = some pool → supported pool = true

/-- Address derivation always finds an address off the curve, as it does but for
a chance of two to the minus 256. -/
def Derives (builder : TxBuilder) : Prop :=
  ∀ seeds program, ∃ key, builder.findProgramAddress seeds program = some key

section Addresses

variable (builder : TxBuilder) (derives : Derives builder)

include derives

theorem address_ok (seeds : List (List UInt8)) (program : Pubkey) :
    ∃ key, builder.address seeds program = .ok key := by
  rcases derives seeds program with ⟨key, found⟩
  exact ⟨key, by rw [address, found]⟩

theorem tryAddress_ok (what : String) (seeds : List (List UInt8)) (program : Pubkey) :
    ∃ key, builder.tryAddress what seeds program = .ok key := by
  rcases derives seeds program with ⟨key, found⟩
  exact ⟨key, by rw [tryAddress, found]⟩

theorem tickArrays_ok (whirlpool : Pubkey) (starts : List Int) (long : 5 ≤ starts.length) :
    ∃ arrays, builder.deriveOrcaTickArrays whirlpool starts = .ok arrays := by
  rcases starts with _ | ⟨first, _ | ⟨second, _ | ⟨third, _ | ⟨fourth, _ | ⟨fifth, rest⟩⟩⟩⟩⟩
  case cons.cons.cons.cons.cons =>
    rcases mapM_ok (builder.deriveOrcaTickArray whirlpool) [first, second, third]
      (fun start _ => tryAddress_ok builder derives _ _ _) with ⟨primary, primaryDone⟩
    rcases mapM_ok (builder.deriveOrcaTickArray whirlpool) [fourth, fifth]
      (fun start _ => tryAddress_ok builder derives _ _ _) with ⟨supplemental, supplementalDone⟩
    refine ⟨(primary, supplemental), ?_⟩
    rw [deriveOrcaTickArrays, primaryDone, ok_bind, supplementalDone, ok_bind]
    rfl
  all_goals
    simp at long

end Addresses

section Hops

variable {F : Type} [FloatArith F] (powf : F → F → F) (builder : TxBuilder)

omit [FloatArith F] in
theorem raydiumAccounts_outcome (ctx : HopContext F) :
    (((ctx.pool.raydiumMeta.map marketAccountsKnown).getD false = true) ∧
      ∃ accounts, builder.raydiumAccounts ctx = .ok accounts) ∨
    (((ctx.pool.raydiumMeta.map marketAccountsKnown).getD false = false) ∧
      ∃ failed, builder.raydiumAccounts ctx = .error failed ∧ LacksSupport failed) := by
  unfold raydiumAccounts
  cases ctx.pool.raydiumMeta with
  | none => exact Or.inr ⟨rfl, _, rfl, trivial⟩
  | some raydium =>
      cases known : marketAccountsKnown raydium with
      | false =>
          simp only [Option.map_some, Option.getD_some, known, Bool.false_eq_true, if_false]
          exact Or.inr ⟨trivial, _, rfl, trivial⟩
      | true =>
          simp only [Option.map_some, Option.getD_some, known, if_true]
          exact Or.inl ⟨trivial, _, rfl⟩

theorem orcaAccounts_ok (derives : Derives builder) (ctx : HopContext F) (orca : OrcaMetadata)
    (known : ctx.pool.orcaMeta = some orca) (spaced : orca.tickSpacing ≠ 0) :
    ∃ accounts, builder.orcaAccounts powf ctx = .ok accounts := by
  rcases address_ok builder derives [builder.payer.toBytes, tokenProgramId.toBytes,
    ctx.pool.tokenA.toBytes] associatedTokenProgramId with ⟨ownerA, ownerADone⟩
  rcases address_ok builder derives [builder.payer.toBytes, tokenProgramId.toBytes,
    ctx.pool.tokenB.toBytes] associatedTokenProgramId with ⟨ownerB, ownerBDone⟩
  rcases tickArrays_ok builder derives ctx.hop.pool _ (TickSequence.orderedTickArrayStarts_long
    powf orca spaced ctx.amountIn ctx.pool.feeBps ctx.aToB) with ⟨arrays, arraysDone⟩
  rcases tryAddress_ok builder derives "Whirlpool authority"
    [seedText "whirlpool", ctx.hop.pool.toBytes] DexPrograms.orcaWhirlpool with
    ⟨authority, authorityDone⟩
  rcases tryAddress_ok builder derives "Orca oracle" [seedText "oracle", ctx.hop.pool.toBytes]
    DexPrograms.orcaWhirlpool with ⟨oracle, oracleDone⟩
  simp only [orcaAccounts, known, if_neg spaced, associatedTokenAddress,
    associatedTokenAddressWithProgram, ownerADone, ownerBDone, arraysDone,
    deriveOrcaWhirlpoolAuthority, authorityDone, deriveOrcaOracle, oracleDone, ok_bind]
  exact ⟨_, rfl⟩

omit [FloatArith F] in
theorem meteoraAccounts_ok (derives : Derives builder) (ctx : HopContext F)
    (meteora : MeteoraMetadata) (known : ctx.pool.meteoraMeta = some meteora) :
    ∃ accounts, builder.meteoraAccounts ctx = .ok accounts := by
  rcases mapM_ok (builder.deriveMeteoraBinArray ctx.hop.pool)
    (meteoraBinArrayIndices meteora ctx.aToB)
    (fun index _ => tryAddress_ok builder derives _ _ _) with ⟨binArrays, binArraysDone⟩
  rcases tryAddress_ok builder derives "Meteora oracle" [seedText "oracle", ctx.hop.pool.toBytes]
    DexPrograms.meteoraDlmm with ⟨oracle, oracleDone⟩
  simp only [meteoraAccounts, known, binArraysDone, deriveMeteoraOracle, oracleDone, ok_bind]
  exact ⟨_, rfl⟩

omit [FloatArith F] in
theorem pumpSwapAccounts_ok (derives : Derives builder) (ctx : HopContext F) :
    ∃ accounts, builder.pumpSwapAccounts ctx = .ok accounts := by
  choose find found using derives
  simp only [pumpSwapAccounts, associatedTokenAddress, associatedTokenAddressWithProgram, address,
    found, ok_bind]
  exact ⟨_, rfl⟩

/-- With its addresses derived, a hop's accounts exist exactly for a supported pool. -/
theorem hopAccounts_outcome (derives : Derives builder) (ctx : HopContext F) :
    (supported ctx.pool = true ∧
      ∃ accounts, builder.hopAccounts powf ctx.pool.dexType ctx = .ok accounts) ∨
    (supported ctx.pool = false ∧
      ∃ failed, builder.hopAccounts powf ctx.pool.dexType ctx = .error failed ∧
        LacksSupport failed) := by
  unfold supported hopAccounts
  cases ctx.pool.dexType with
  | raydiumAmmV4 => exact raydiumAccounts_outcome builder ctx
  | orcaWhirlpool =>
      cases known : ctx.pool.orcaMeta with
      | none =>
          right
          dsimp only
          rw [orcaAccounts, known]
          exact ⟨rfl, _, rfl, trivial⟩
      | some orca =>
          by_cases spaced : orca.tickSpacing = 0
          · right
            simp only [orcaAccounts, known, if_pos spaced]
            exact ⟨by simp [spaced], _, rfl, trivial⟩
          · left
            exact ⟨by simp [spaced], orcaAccounts_ok powf builder derives ctx orca known spaced⟩
  | meteoraDlmm =>
      cases known : ctx.pool.meteoraMeta with
      | none =>
          right
          dsimp only
          rw [meteoraAccounts, known]
          exact ⟨rfl, _, rfl, trivial⟩
      | some meteora => exact Or.inl ⟨rfl, meteoraAccounts_ok builder derives ctx meteora known⟩
  | pumpSwap => exact Or.inl ⟨rfl, pumpSwapAccounts_ok builder derives ctx⟩
  | raydiumClmm => exact Or.inr ⟨rfl, _, rfl, trivial⟩
  | fluxbeam => exact Or.inr ⟨rfl, _, rfl, trivial⟩
  | saber => exact Or.inr ⟨rfl, _, rfl, trivial⟩
  | raydiumCpmm => exact Or.inr ⟨rfl, _, rfl, trivial⟩
  | unknown => exact Or.inr ⟨rfl, _, rfl, trivial⟩

theorem buildSwapData_ok (pool : DexPool) (able : supported pool = true)
    (amountIn minOut : Nat) (aToB : Bool) (arrays : Nat) :
    ∃ data, buildSwapData pool.dexType amountIn minOut aToB arrays = .ok data := by
  unfold supported at able
  cases dex : pool.dexType <;> rw [dex] at able <;> first
    | exact ⟨_, rfl⟩
    | cases able

/-- A hop over a cached pool whose program and tokens it names rightly. -/
structure WellFormed (cache : PoolStateCache) (hop : Hop F) (pool : DexPool) : Prop where
  cached : cache.get hop.pool = some pool
  program : hop.dexProgram = dexProgramFor pool.dexType
  tokenIn : hop.tokenIn = pool.tokenA ∨ hop.tokenIn = pool.tokenB
  tokenOut : hop.tokenOut = pool.tokenA ∨ hop.tokenOut = pool.tokenB

omit [FloatArith F] in
theorem checkTokens_ok (hopIdx : Nat) (cache : PoolStateCache) (hop : Hop F) (pool : DexPool)
    (formed : WellFormed cache hop pool) (different : hop.tokenIn ≠ hop.tokenOut) :
    checkTokens hopIdx hop pool = .ok () := by
  have inside : ¬ (hop.tokenIn ≠ pool.tokenA ∧ hop.tokenIn ≠ pool.tokenB) :=
    fun outside => formed.tokenIn.elim outside.1 outside.2
  have outside : ¬ (hop.tokenOut ≠ pool.tokenA ∧ hop.tokenOut ≠ pool.tokenB) :=
    fun outside => formed.tokenOut.elim outside.1 outside.2
  rw [checkTokens, if_neg different, if_neg inside, if_neg outside]

theorem buildHop_same (cache : PoolStateCache) (tokenPrograms : HashMap Pubkey Pubkey)
    (hopIdx amountIn : Nat) (hop : Hop F) (pool : DexPool) (formed : WellFormed cache hop pool)
    (same : hop.tokenIn = hop.tokenOut) :
    builder.buildHop powf cache tokenPrograms hopIdx amountIn hop =
      .error (.sameToken hopIdx hop.tokenIn) := by
  have refused : checkTokens hopIdx hop pool = .error (.sameToken hopIdx hop.tokenIn) := by
    rw [checkTokens, if_pos same]
  simp only [buildHop, formed.cached, refused]
  rfl

theorem buildHop_outcome (derives : Derives builder) (cache : PoolStateCache)
    (tokenPrograms : HashMap Pubkey Pubkey) (hopIdx amountIn : Nat) (hop : Hop F) (pool : DexPool)
    (formed : WellFormed cache hop pool) (different : hop.tokenIn ≠ hop.tokenOut) :
    (supported pool = true ∧
      ∃ built, builder.buildHop powf cache tokenPrograms hopIdx amountIn hop = .ok built) ∨
    (supported pool = false ∧
      ∃ failed, builder.buildHop powf cache tokenPrograms hopIdx amountIn hop = .error failed ∧
        LacksSupport failed) := by
  have dex : DexType.fromProgramId hop.dexProgram = pool.dexType := by
    rw [formed.program, fromProgramId_dexProgramFor]
  have checked := checkTokens_ok hopIdx cache hop pool formed different
  rcases address_ok builder derives [builder.payer.toBytes,
    (tokenProgramOf tokenPrograms hop.tokenIn).toBytes, hop.tokenIn.toBytes]
    associatedTokenProgramId with ⟨source, sourceDone⟩
  rcases address_ok builder derives [builder.payer.toBytes,
    (tokenProgramOf tokenPrograms hop.tokenOut).toBytes, hop.tokenOut.toBytes]
    associatedTokenProgramId with ⟨destination, destinationDone⟩
  simp only [buildHop, formed.cached, dex, checked, associatedTokenAddressWithProgram, sourceDone,
    destinationDone, ok_bind]
  rcases hopAccounts_outcome powf builder derives
    ⟨hop, pool, amountIn, decide (hop.tokenIn = pool.tokenA),
      tokenProgramOf tokenPrograms hop.tokenIn, tokenProgramOf tokenPrograms hop.tokenOut,
      source, destination⟩ with ⟨able, accounts, done⟩ | ⟨unable, failed, done, lacks⟩
  · rcases buildSwapData_ok pool able amountIn minOut (decide (hop.tokenIn = pool.tokenA))
      (orcaSupplementalTickArrays pool.dexType) with ⟨data, written⟩
    rw [done, ok_bind, written]
    exact Or.inl ⟨able, _, rfl⟩
  · rw [done]
    exact Or.inr ⟨unable, failed, rfl, lacks⟩

omit [FloatArith F] in
theorem hopSupported_iff (cache : PoolStateCache) (hop : Hop F) (pool : DexPool)
    (cached : cache.get hop.pool = some pool) :
    HopSupported cache hop ↔ supported pool = true := by
  constructor
  · exact fun each => each pool cached
  · intro able other found
    rw [cached] at found
    exact Option.some.inj found ▸ able

end Hops

section Routes

variable {F : Type} [FloatArith F] (powf : F → F → F) (now : Instant)

theorem pairKey_tokens (a b : Pubkey) :
    pairKey a b = (a, b) ∨ pairKey a b = (b, a) := by
  rw [pairKey]
  split
  · exact Or.inl rfl
  · exact Or.inr rfl

/-- A scanned route is two well-formed hops, there and back. -/
theorem scanned_wellFormed (cache : PoolStateCache)
    (keyed : ∀ address pool, cache.get address = some pool → pool.poolAddress = address)
    (passes : DexPool → Bool) (route : RouteParams F)
    (scanned : Scanned powf now cache passes route) :
    ∃ (firstHop secondHop : Hop F) (first second : DexPool),
      route.hops = [firstHop, secondHop] ∧ WellFormed cache firstHop first ∧
      WellFormed cache secondHop second ∧ passes first = true ∧ passes second = true ∧
      secondHop.tokenIn = firstHop.tokenOut ∧ secondHop.tokenOut = firstHop.tokenIn := by
  rcases scanned.built with ⟨key, first, second, firstAToB, secondAToB, tokenIn, tokenMid,
    borrowAmount, plain, firstIn, secondIn, direction, built, sameHops, -⟩
  have spec := twoHopRoute_spec powf now first.pool firstAToB second.pool secondAToB tokenIn
    tokenMid borrowAmount plain built
  rcases spec.hops with ⟨firstHop, secondHop, hops, firstPool, firstProgram, firstTokenIn,
    firstTokenOut, -, secondPool, secondProgram, secondTokenIn, secondTokenOut, -⟩
  have held : ∀ rate : PoolRate F, Candidate cache passes key rate →
      cache.get rate.pool.poolAddress = some rate.pool := by
    intro rate candidate
    rcases (HashMap.mem_values cache.inner rate.pool).mp candidate.cached with ⟨address, found⟩
    rw [keyed address rate.pool found]
    exact found
  have tokens : ∀ rate : PoolRate F, Candidate cache passes key rate →
      (tokenIn = rate.pool.tokenA ∨ tokenIn = rate.pool.tokenB) ∧
      (tokenMid = rate.pool.tokenA ∨ tokenMid = rate.pool.tokenB) := by
    intro rate candidate
    rcases pairKey_tokens rate.pool.tokenA rate.pool.tokenB with same | same
    · rw [candidate.ofPair] at same
      rw [same] at direction
      rcases direction with ⟨sameIn, sameMid⟩ | ⟨sameIn, sameMid⟩
      · exact ⟨Or.inl sameIn, Or.inr sameMid⟩
      · exact ⟨Or.inr sameIn, Or.inl sameMid⟩
    · rw [candidate.ofPair] at same
      rw [same] at direction
      rcases direction with ⟨sameIn, sameMid⟩ | ⟨sameIn, sameMid⟩
      · exact ⟨Or.inr sameIn, Or.inl sameMid⟩
      · exact ⟨Or.inl sameIn, Or.inr sameMid⟩
  refine ⟨firstHop, secondHop, first.pool, second.pool, sameHops.trans hops, ?_, ?_,
    firstIn.passed, secondIn.passed, ?_, ?_⟩
  · exact ⟨firstPool ▸ held first firstIn, firstProgram, firstTokenIn ▸ (tokens first firstIn).1,
      firstTokenOut ▸ (tokens first firstIn).2⟩
  · exact ⟨secondPool ▸ held second secondIn, secondProgram,
      secondTokenIn ▸ (tokens second secondIn).2, secondTokenOut ▸ (tokens second secondIn).1⟩
  · rw [secondTokenIn, firstTokenOut]
  · rw [secondTokenOut, firstTokenIn]

variable (builder : TxBuilder)

theorem buildHops_two (cache : PoolStateCache) (tokenPrograms : HashMap Pubkey Pubkey)
    (amountIn : Nat) (firstHop secondHop : Hop F) (failed : BuildError) :
    builder.buildHops powf cache tokenPrograms 0 amountIn [firstHop, secondHop] = .error failed ↔
      builder.buildHop powf cache tokenPrograms 0 amountIn firstHop = .error failed ∨
      ∃ built, builder.buildHop powf cache tokenPrograms 0 amountIn firstHop = .ok built ∧
        builder.buildHop powf cache tokenPrograms 1 (safeOut firstHop) secondHop =
          .error failed := by
  rw [buildHops, bind_eq_error_iff]
  apply or_congr Iff.rfl
  apply exists_congr
  intro built
  apply and_congr Iff.rfl
  rw [bind_eq_error_iff, buildHops, bind_eq_error_iff, buildHops]
  constructor
  · intro either
    rcases either with (here | ⟨other, _, nothing⟩) | ⟨others, _, nothing⟩
    · exact here
    · rcases (bind_eq_error_iff _ _ _).mp nothing with absurd | ⟨rest, _, absurd⟩
      · cases absurd
      · cases absurd
    · cases nothing
  · exact fun here => Or.inl (Or.inl here)

theorem buildHeliosInstruction_error_iff (derives : Derives builder) (cache : PoolStateCache)
    (route : RouteParams F) (user : Pubkey) (tokenPrograms : HashMap Pubkey Pubkey)
    (failed : BuildError) :
    builder.buildHeliosInstruction powf route user cache tokenPrograms = .error failed ↔
      builder.buildHops powf cache tokenPrograms 0 route.borrowAmount route.hops =
        .error failed := by
  rcases address_ok builder derives [seedText "config"] builder.heliosProgram with ⟨config, done⟩
  rw [buildHeliosInstruction, bind_eq_error_iff]
  constructor
  · intro either
    rcases either with here | ⟨hops, _, later⟩
    · exact here
    · rw [done, ok_bind] at later
      cases later
  · exact Or.inl

/-- Routes over well-formed hops: the builder objects to a pool exactly when one
of the two is unsupported, unless the two tokens are one and the same. -/
theorem two_hops_executable_iff (derives : Derives builder) (cache : PoolStateCache)
    (route : RouteParams F) (user : Pubkey) (tokenPrograms : HashMap Pubkey Pubkey)
    (firstHop secondHop : Hop F) (first second : DexPool)
    (hops : route.hops = [firstHop, secondHop]) (firstFormed : WellFormed cache firstHop first)
    (secondFormed : WellFormed cache secondHop second)
    (back : secondHop.tokenIn = firstHop.tokenOut ∧ secondHop.tokenOut = firstHop.tokenIn) :
    (∀ failed, builder.buildHeliosInstruction powf route user cache tokenPrograms =
        .error failed → ¬ LacksSupport failed) ↔
      firstHop.tokenIn = firstHop.tokenOut ∨ ∀ hop ∈ route.hops, HopSupported cache hop := by
  have both : (∀ hop ∈ route.hops, HopSupported cache hop) ↔
      supported first = true ∧ supported second = true := by
    rw [hops, List.forall_mem_cons, List.forall_mem_singleton,
      hopSupported_iff cache firstHop first firstFormed.cached,
      hopSupported_iff cache secondHop second secondFormed.cached]
  rw [both]
  constructor
  · intro fine
    by_cases same : firstHop.tokenIn = firstHop.tokenOut
    · exact Or.inl same
    · right
      have different : secondHop.tokenIn ≠ secondHop.tokenOut := by
        rw [back.1, back.2]
        exact Ne.symm same
      rcases buildHop_outcome powf builder derives cache tokenPrograms 0 route.borrowAmount firstHop
        first firstFormed same with ⟨firstAble, built, firstDone⟩ | ⟨_, failed, refused, lacks⟩
      · rcases buildHop_outcome powf builder derives cache tokenPrograms 1 (safeOut firstHop)
          secondHop second secondFormed different with
          ⟨secondAble, _⟩ | ⟨_, failed, refused, lacks⟩
        · exact ⟨firstAble, secondAble⟩
        · refine absurd lacks (fine failed ?_)
          rw [buildHeliosInstruction_error_iff powf builder derives cache route user tokenPrograms,
            hops, buildHops_two]
          exact Or.inr ⟨built, firstDone, refused⟩
      · refine absurd lacks (fine failed ?_)
        rw [buildHeliosInstruction_error_iff powf builder derives cache route user tokenPrograms, hops,
          buildHops_two]
        exact Or.inl refused
  · intro fine failed objected lacks
    rw [buildHeliosInstruction_error_iff powf builder derives cache route user tokenPrograms, hops,
      buildHops_two] at objected
    rcases fine with same | ⟨firstAble, secondAble⟩
    · rw [buildHop_same powf builder cache tokenPrograms 0 _ firstHop first firstFormed same]
        at objected
      rcases objected with here | ⟨built, absurd, _⟩
      · cases here
        exact lacks
      · cases absurd
    · by_cases same : firstHop.tokenIn = firstHop.tokenOut
      · rw [buildHop_same powf builder cache tokenPrograms 0 _ firstHop first firstFormed same]
          at objected
        rcases objected with here | ⟨built, absurd, _⟩
        · cases here
          exact lacks
        · cases absurd
      · have different : secondHop.tokenIn ≠ secondHop.tokenOut := by
          rw [back.1, back.2]
          exact Ne.symm same
        rcases buildHop_outcome powf builder derives cache tokenPrograms 0 route.borrowAmount
          firstHop first firstFormed same with ⟨_, built, firstDone⟩ | ⟨unable, _⟩
        · rcases buildHop_outcome powf builder derives cache tokenPrograms 1 (safeOut firstHop)
            secondHop second secondFormed different with ⟨_, other, secondDone⟩ | ⟨unable, _⟩
          · rcases objected with here | ⟨_, _, here⟩
            · rw [firstDone] at here
              cases here
            · rw [secondDone] at here
              cases here
          · rw [secondAble] at unable
            cases unable
        · rw [firstAble] at unable
          cases unable

/-- For every route of either scan over every reachable cache. -/
theorem scanned_route_executable_iff (derives : Derives builder) (ops : List CacheOp)
    (tokenA tokenB : Pubkey) (borrowAmounts : List Nat) (route : RouteParams F) (user : Pubkey)
    (tokenPrograms : HashMap Pubkey Pubkey)
    (scanned :
      route ∈ scanCrossDexOpportunities powf now
        (run (applyOp powf) PoolStateCache.new ops) borrowAmounts ∨
      route ∈ scanPairOpportunities powf now
        (run (applyOp powf) PoolStateCache.new ops) tokenA tokenB borrowAmounts) :
    (∀ failed, builder.buildHeliosInstruction powf route user
        (run (applyOp powf) PoolStateCache.new ops) tokenPrograms = .error failed →
          ¬ LacksSupport failed) ↔
      (∃ hop ∈ route.hops, hop.tokenIn = hop.tokenOut) ∨
        ∀ hop ∈ route.hops, HopSupported (run (applyOp powf) PoolStateCache.new ops) hop := by
  have coherent := coherent_run powf ops ops (fun op member => member)
  have keyed : ∀ address pool,
      (run (applyOp powf) PoolStateCache.new ops).get address = some pool →
        pool.poolAddress = address :=
    fun address pool found => (coherent.cached address pool found).1
  have formed : ∃ (firstHop secondHop : Hop F) (first second : DexPool),
      route.hops = [firstHop, secondHop] ∧
      WellFormed (run (applyOp powf) PoolStateCache.new ops) firstHop first ∧
      WellFormed (run (applyOp powf) PoolStateCache.new ops) secondHop second ∧
      secondHop.tokenIn = firstHop.tokenOut ∧ secondHop.tokenOut = firstHop.tokenIn := by
    rcases scanned with full | pair
    · rcases scanned_wellFormed powf now _ keyed eligible route
        (scanned_of_scanCrossDex powf now _ borrowAmounts route full) with
        ⟨firstHop, secondHop, first, second, hops, firstFormed, secondFormed, -, -, back⟩
      exact ⟨firstHop, secondHop, first, second, hops, firstFormed, secondFormed, back⟩
    · rcases scanned_wellFormed powf now _ keyed eligibleForPair route
        (scanned_of_scanPair powf now _ tokenA tokenB borrowAmounts route pair) with
        ⟨firstHop, secondHop, first, second, hops, firstFormed, secondFormed, -, -, back⟩
      exact ⟨firstHop, secondHop, first, second, hops, firstFormed, secondFormed, back⟩
  rcases formed with ⟨firstHop, secondHop, first, second, hops, firstFormed, secondFormed, back⟩
  have same : (∃ hop ∈ route.hops, hop.tokenIn = hop.tokenOut) ↔
      firstHop.tokenIn = firstHop.tokenOut := by
    rw [hops]
    constructor
    · intro ⟨hop, member, equal⟩
      rcases List.mem_cons.mp member with here | later
      · rw [← here]
        exact equal
      · rw [List.mem_singleton.mp later, back.1, back.2] at equal
        exact equal.symm
    · exact fun equal => ⟨firstHop, List.mem_cons_self, equal⟩
  rw [same]
  exact two_hops_executable_iff powf builder derives _ route user tokenPrograms firstHop secondHop
    first second hops firstFormed secondFormed back

end Routes

/-- What the full scan's filter leaves open: two DEXes the builder lacks, and a
Raydium pool whose market has not been hydrated. -/
theorem eligible_supported_iff (pool : DexPool) (passed : eligible pool = true) :
    supported pool = true ↔
      pool.dexType ≠ .fluxbeam ∧ pool.dexType ≠ .saber ∧
        ∀ raydium, pool.dexType = .raydiumAmmV4 → pool.raydiumMeta = some raydium →
          marketAccountsKnown raydium = true := by
  simp only [eligible, Bool.and_eq_true] at passed
  rcases passed with ⟨⟨⟨_, complete⟩, kept⟩, _⟩
  unfold completeMetadata at complete
  unfold supported
  cases dex : pool.dexType with
  | raydiumAmmV4 =>
      rw [dex] at complete
      cases known : pool.raydiumMeta with
      | none =>
          rw [known] at complete
          cases complete
      | some raydium => simp
  | orcaWhirlpool =>
      rw [dex] at complete
      cases known : pool.orcaMeta with
      | none =>
          rw [known] at complete
          cases complete
      | some orca =>
          rw [known] at complete
          simp [(of_decide_eq_true complete).1]
  | meteoraDlmm =>
      rw [dex] at complete
      cases known : pool.meteoraMeta with
      | none =>
          rw [known] at complete
          cases complete
      | some meteora => simp
  | pumpSwap => simp
  | fluxbeam => simp
  | saber => simp
  | raydiumClmm => simp [dex] at kept
  | raydiumCpmm => simp [dex] at kept
  | unknown => simp [dex] at kept

/-- The pair scan leaves more open: it looks at no Orca or Meteora metadata and
lets Raydium CPMM pools through. -/
theorem eligibleForPair_supported_iff (pool : DexPool) (passed : eligibleForPair pool = true) :
    supported pool = true ↔
      pool.dexType ≠ .fluxbeam ∧ pool.dexType ≠ .saber ∧ pool.dexType ≠ .raydiumCpmm ∧
        (∀ raydium, pool.dexType = .raydiumAmmV4 → pool.raydiumMeta = some raydium →
          marketAccountsKnown raydium = true) ∧
        (pool.dexType = .orcaWhirlpool → ∃ orca, pool.orcaMeta = some orca ∧
          orca.tickSpacing ≠ 0) ∧
        (pool.dexType = .meteoraDlmm → pool.meteoraMeta.isSome = true) := by
  simp only [eligibleForPair, Bool.and_eq_true] at passed
  rcases passed with ⟨⟨_, kept⟩, vaults⟩
  unfold raydiumVaultsKnown at vaults
  unfold supported
  cases dex : pool.dexType with
  | raydiumAmmV4 =>
      rw [if_pos dex] at vaults
      cases known : pool.raydiumMeta with
      | none =>
          rw [known] at vaults
          cases vaults
      | some raydium => simp
  | orcaWhirlpool =>
      cases known : pool.orcaMeta with
      | none => simp
      | some orca => simp
  | meteoraDlmm => simp
  | pumpSwap => simp
  | fluxbeam => simp
  | saber => simp
  | raydiumClmm => simp [dex] at kept
  | raydiumCpmm => simp
  | unknown => simp [dex] at kept

/-! Two Raydium pools of one pair, the first before its market was hydrated. -/

def raydiumWithMarket (market : Pubkey) : RaydiumMetadata :=
  { authority := .ofNat 20, nonce := 255, openOrders := .ofNat 21, targetOrders := .ofNat 22
    vaultA := .ofNat 23, vaultB := .ofNat 24, marketId := .ofNat 25
    marketProgram := market, marketEventQueue := market, marketBids := market
    marketAsks := market, marketBaseVault := market, marketQuoteVault := market
    marketVaultSigner := market }

def wsolPool (address reserveB : Nat) (market : Pubkey) : DexPool :=
  { poolAddress := .ofNat address, dexType := .raydiumAmmV4
    tokenA := wsol, tokenB := .ofNat (2 ^ 255), decimalsA := 9, decimalsB := 9
    reserveA := 10 ^ 13, reserveB := reserveB, reserveAOptimistic := 0, reserveBOptimistic := 0
    lastShredUpdate := 0, poolVaultABalance := 0, poolVaultBBalance := 0
    marketVaultABalance := 0, marketVaultBBalance := 0, lastUpdated := 0, feeBps := 25
    raydiumMeta := some (raydiumWithMarket market), orcaMeta := none, meteoraMeta := none }

def unhydratedOps : List CacheOp :=
  [.upsert (wsolPool 1 (103 * 10 ^ 11) default), .upsert (wsolPool 2 (10 ^ 13) (.ofNat 30))]

def firstArgument (base _ : Double) : Double := base

def unhydratedCache : PoolStateCache := run (applyOp firstArgument) PoolStateCache.new unhydratedOps

/-- Derives one address whatever the seeds. -/
def constantBuilder : TxBuilder := ⟨.ofNat 7, .ofNat 8, fun _ _ => some (.ofNat 9)⟩

theorem constantBuilder_derives : Derives constantBuilder := fun _ _ => ⟨_, rfl⟩

theorem unhydrated_market_scanned :
    ∃ route ∈ scanCrossDexOpportunities firstArgument 0 unhydratedCache [10 ^ 9],
      constantBuilder.buildHeliosInstruction firstArgument route default unhydratedCache
        HashMap.empty = .error (.metadataIncomplete "Raydium" (.ofNat 1)) := by
  have evaluated : (scanCrossDexOpportunities firstArgument 0 unhydratedCache [10 ^ 9]).any
      (fun route => decide (constantBuilder.buildHeliosInstruction firstArgument route default
        unhydratedCache HashMap.empty = .error (.metadataIncomplete "Raydium" (.ofNat 1)))) =
        true := by
    decide +kernel
  rcases List.any_eq_true.mp evaluated with ⟨route, scanned, refused⟩
  exact ⟨route, scanned, of_decide_eq_true refused⟩

/-- The scanner returned a route the builder refuses for incomplete metadata. -/
theorem scanned_route_refused :
    ¬ ∀ route ∈ scanCrossDexOpportunities firstArgument 0 unhydratedCache [10 ^ 9],
      ∀ failed, constantBuilder.buildHeliosInstruction firstArgument route default
        unhydratedCache HashMap.empty = .error failed → ¬ LacksSupport failed := by
  intro all
  rcases unhydrated_market_scanned with ⟨route, scanned, refused⟩
  exact all route scanned _ refused trivial

theorem unhydrated_route_executable_iff :
    ∃ route ∈ scanCrossDexOpportunities firstArgument 0 unhydratedCache [10 ^ 9],
      (∀ failed, constantBuilder.buildHeliosInstruction firstArgument route default
        unhydratedCache HashMap.empty = .error failed → ¬ LacksSupport failed) ↔
      (∃ hop ∈ route.hops, hop.tokenIn = hop.tokenOut) ∨
        ∀ hop ∈ route.hops, HopSupported unhydratedCache hop := by
  rcases unhydrated_market_scanned with ⟨route, scanned, _⟩
  exact ⟨route, scanned, scanned_route_executable_iff firstArgument 0 constantBuilder
    constantBuilder_derives unhydratedOps default default [10 ^ 9] route default HashMap.empty
    (Or.inl scanned)⟩

end Helios.Executability
