import Helios.FlashSequence
import Helios.SwapDecoder

/-! The swap a hop's instruction asks its DEX for, read from what each of the two
builders writes: the call handed to the on-chain program, and the direct
instruction. Data are read with one layout a DEX, accounts where each builder
puts them. -/

namespace Helios.VenueSwap

open CrossDex Fallible FlashLoans FlashSequence Machine RouteExecution SwapDecoder TxBuilder

inductive Path where
  | helios
  | direct

/-- What a DEX is asked for: give one side, take the other. Sides are the user's
token accounts for Raydium and Meteora, the mints for Orca and PumpSwap. -/
structure SwapRequest where
  program : Pubkey
  pool : Pubkey
  tag : List UInt8
  given : Pubkey
  taken : Pubkey
  amountIn : Nat
  minOut : Nat

/-- Raydium reads one byte as its tag, the others eight. -/
def tagLength : DexType → Nat
  | .raydiumAmmV4 => 1
  | _ => 8

/-- Where a builder lists the two sides behind the program. -/
def sidePlaces : Path → DexType → Nat × Nat
  | .helios, .raydiumAmmV4 => (14, 15)
  | .direct, .raydiumAmmV4 => (15, 16)
  | .helios, .meteoraDlmm => (3, 4)
  | .direct, .meteoraDlmm => (5, 6)
  | .helios, .pumpSwap => (2, 3)
  | .direct, .pumpSwap => (3, 4)
  | _, _ => (5, 6)

/-- The data turn the listed sides around: an Orca swap from B to A, a PumpSwap
purchase of the base mint. -/
def turned (dex : DexType) (data : List UInt8) : Bool :=
  match dex with
  | .orcaWhirlpool => decide (data[41]? = some 0)
  | .pumpSwap => decide (data.take 8 = pumpSwapBuyDisc)
  | _ => false

def readRequest (path : Path) (dex : DexType) (ix : Instruction) : Option SwapRequest := do
  let pool ← ix.accounts[poolPlace dex]?
  let first ← ix.accounts[(sidePlaces path dex).1]?
  let second ← ix.accounts[(sidePlaces path dex).2]?
  return {
    program := ix.programId
    pool := pool.pubkey
    tag := ix.data.take (tagLength dex)
    given := if turned dex ix.data then second.pubkey else first.pubkey
    taken := if turned dex ix.data then first.pubkey else second.pubkey
    amountIn := u64At (tagLength dex) ix.data
    minOut := u64At (tagLength dex + 8) ix.data }

/-- Both builders ask the same program and pool for the same swap by the same tag,
each of the amount it has at that hop, with the same minimum. -/
def SameSwap (dex : DexType) (heliosIx directIx : Instruction) (heliosSpends directSpends : Nat) :
    Prop :=
  ∃ first second, readRequest .helios dex heliosIx = some first ∧
    readRequest .direct dex directIx = some second ∧ first.program = second.program ∧
    first.pool = second.pool ∧ first.tag = second.tag ∧ first.given = second.given ∧
    first.taken = second.taken ∧ first.amountIn = heliosSpends ∧
    second.amountIn = directSpends ∧ first.minOut = second.minOut

theorem readRequest_data (path : Path) (dex : DexType) (ix : Instruction) (request : SwapRequest)
    (read : readRequest path dex ix = some request) :
    request.tag = ix.data.take (tagLength dex) ∧ request.minOut = u64At (tagLength dex + 8) ix.data := by
  simp only [readRequest, Option.bind_eq_bind, Option.bind_eq_some_iff] at read
  rcases read with ⟨pool, _, first, _, second, _, same⟩
  cases same
  exact ⟨rfl, rfl⟩

theorem readRequest_of_data (path : Path) (dex : DexType) (ix : Instruction)
    (pool first second : AccountMeta) (tag rest : List UInt8) (amountIn minOut : Nat)
    (poolAt : ix.accounts[poolPlace dex]? = some pool)
    (firstAt : ix.accounts[(sidePlaces path dex).1]? = some first)
    (secondAt : ix.accounts[(sidePlaces path dex).2]? = some second)
    (data : ix.data = tag ++ (leBytes 8 amountIn ++ (leBytes 8 minOut ++ rest)))
    (length : tag.length = tagLength dex) (small : amountIn < 2 ^ 64)
    (smallOut : minOut < 2 ^ 64) :
    readRequest path dex ix = some {
      program := ix.programId
      pool := pool.pubkey
      tag := tag
      given := if turned dex ix.data then second.pubkey else first.pubkey
      taken := if turned dex ix.data then first.pubkey else second.pubkey
      amountIn := amountIn
      minOut := minOut } := by
  have start : ix.data.take (tagLength dex) = tag := by
    rw [data]
    exact List.take_left' length
  have spends : u64At (tagLength dex) ix.data = amountIn := by
    rw [data, ← length]
    exact ofLeBytes_at tag _ amountIn small
  have least : u64At (tagLength dex + 8) ix.data = minOut := by
    have shifted := ofLeBytes_at (tag ++ leBytes 8 amountIn) rest minOut smallOut
    rw [List.length_append, leBytes_length, List.append_assoc, ← data, length] at shifted
    exact shifted
  rw [readRequest, poolAt, firstAt, secondAt, start, spends, least]
  rfl

section Data

/-- The data of a direct swap. -/
def directData (dex : DexType) (amountIn : Nat) (aToB : Bool) : List UInt8 :=
  match dex with
  | .raydiumAmmV4 => [9, 0, 0, 0, 0, 0, 0, 0] ++ (leBytes 8 amountIn ++ leBytes 8 minOut)
  | .pumpSwap => pumpSwapSellDisc ++ (leBytes 8 amountIn ++ leBytes 8 minOut)
  | .meteoraDlmm => orcaSwapDisc ++ (leBytes 8 amountIn ++ leBytes 8 minOut)
  | _ => orcaSwapV2Data amountIn minOut aToB 0

/-- Raydium finds the last byte of the minimum, a one, at the top of it. -/
theorem direct_raydium_minOut (amountIn : Nat) (aToB : Bool) :
    1 < u64At 9 (directData .raydiumAmmV4 amountIn aToB) := by
  simp only [directData, u64At, leBytes, minOut, List.cons_append, List.nil_append, List.drop_succ_cons,
    List.drop_zero, List.take_succ_cons, List.take_zero, ofLeBytes]
  have last : (UInt8.ofNat (1 % 256)).toNat = 1 := by decide
  rw [last]
  omega

theorem orcaSwapV2Data_split (amountIn minOut : Nat) (aToB : Bool) (arrays : Nat) :
    ∃ rest, orcaSwapV2Data amountIn minOut aToB arrays =
        [43, 4, 237, 11, 26, 201, 30, 98] ++ (leBytes 8 amountIn ++ (leBytes 8 minOut ++ rest)) ∧
      turned .orcaWhirlpool (orcaSwapV2Data amountIn minOut aToB arrays) = !aToB := by
  refine ⟨_, by simp only [orcaSwapV2Data, List.append_assoc]; rfl, ?_⟩
  have place : (orcaSwapV2Data amountIn minOut aToB arrays)[41]? =
      some (if aToB then 1 else 0) := by
    rw [orcaSwapV2Data, List.getElem?_append_left (by simp), List.getElem?_append_right (by simp)]
    simp
  rw [turned, place]
  cases aToB with
  | true => rfl
  | false => rfl

end Data

section Builders

variable {F : Type} [FloatArith F] (powf : F → F → F) (env : FlashEnv) (builder : TxBuilder)

omit [FloatArith F] in
/-- The program and the data of a swap, for the venues that have one. -/
theorem directIx_spec (dex : DexType) (ctx : HopContext F) (ix : Instruction)
    (done : builder.directIx dex ctx = .ok ix) :
    dex ≠ .unknown ∧ ix.programId = ctx.hop.dexProgram ∧
      ix.data = directData dex ctx.amountIn ctx.aToB := by
  unfold directIx at done
  cases dex with
  | raydiumAmmV4 =>
      simp only [raydiumDirectIx] at done
      split at done
      · cases done
      · cases done
        exact ⟨by decide, rfl, rfl⟩
  | pumpSwap =>
      simp only [pumpSwapDirectIx, liftBuild, bind_eq_ok_iff] at done
      rcases done with ⟨_, _, _, _, _, _, same⟩
      cases same
      exact ⟨by decide, rfl, rfl⟩
  | meteoraDlmm =>
      simp only [meteoraDirectIx] at done
      split at done
      · cases done
      · simp only [liftBuild, bind_eq_ok_iff] at done
        rcases done with ⟨_, _, same⟩
        cases same
        exact ⟨by decide, rfl, rfl⟩
  | orcaWhirlpool =>
      simp only [orcaDirectIx] at done
      split at done
      · cases done
      · split at done
        · cases done
        · simp only [liftBuild, bind_eq_ok_iff, buildSwapData] at done
          rcases done with ⟨_, _, _, _, _, _, _, _, data, written, same⟩
          cases written
          cases same
          exact ⟨by decide, rfl, rfl⟩
  | raydiumClmm => cases done
  | fluxbeam => cases done
  | saber => cases done
  | raydiumCpmm => cases done
  | unknown => cases done

omit [FloatArith F] in
theorem orcaDirectIx_accounts (ctx : HopContext F) (ix : Instruction)
    (done : builder.orcaDirectIx ctx = .ok ix) :
    ix.programId = ctx.hop.dexProgram ∧ ix.accounts[4]? = some (.new ctx.hop.pool false) ∧
      ix.accounts[5]? = some (.newReadonly ctx.pool.tokenA false) ∧
      ix.accounts[6]? = some (.newReadonly ctx.pool.tokenB false) := by
  simp only [orcaDirectIx] at done
  split at done
  · cases done
  · split at done
    · cases done
    · simp only [liftBuild, bind_eq_ok_iff] at done
      rcases done with ⟨_, _, _, _, _, _, _, _, _, _, same⟩
      cases same
      exact ⟨rfl, rfl, rfl, rfl⟩

theorem orcaAccounts_places (ctx : HopContext F) (accounts : List AccountMeta)
    (listed : builder.orcaAccounts powf ctx = .ok accounts) (data : List UInt8) :
    (swapInstruction accounts data).programId = ctx.hop.dexProgram ∧
      (swapInstruction accounts data).accounts[4]? = some (.new ctx.hop.pool false) ∧
      (swapInstruction accounts data).accounts[5]? = some (.newReadonly ctx.pool.tokenA false) ∧
      (swapInstruction accounts data).accounts[6]? = some (.newReadonly ctx.pool.tokenB false) := by
  simp only [orcaAccounts] at listed
  split at listed
  · cases listed
  · split at listed
    · cases listed
    · simp only [bind_eq_ok_iff] at listed
      rcases listed with ⟨_, _, _, _, _, _, _, _, _, _, same⟩
      cases same
      exact ⟨rfl, rfl, rfl, rfl⟩

omit [FloatArith F] in
theorem pumpSwapDirectIx_accounts (ctx : HopContext F) (ix : Instruction)
    (done : builder.pumpSwapDirectIx ctx = .ok ix) :
    ix.programId = ctx.hop.dexProgram ∧ ix.accounts[0]? = some (.new ctx.hop.pool false) ∧
      ix.accounts[3]? = some (.newReadonly ctx.pool.tokenA false) ∧
      ix.accounts[4]? = some (.newReadonly ctx.pool.tokenB false) := by
  simp only [pumpSwapDirectIx, liftBuild, bind_eq_ok_iff] at done
  rcases done with ⟨_, _, _, _, _, _, same⟩
  cases same
  exact ⟨rfl, rfl, rfl, rfl⟩

omit [FloatArith F] in
/-- The base mint of the call is the one that is not WSOL. -/
theorem pumpSwapAccounts_places (ctx : HopContext F) (accounts : List AccountMeta)
    (listed : builder.pumpSwapAccounts ctx = .ok accounts) (data : List UInt8) :
    (swapInstruction accounts data).programId = DexPrograms.pumpswap ∧
      (swapInstruction accounts data).accounts[0]? = some (.new ctx.hop.pool false) ∧
      (swapInstruction accounts data).accounts[2]? = some (.newReadonly
        (if ctx.pool.tokenA = wsol then ctx.pool.tokenB else ctx.pool.tokenA) false) ∧
      (swapInstruction accounts data).accounts[3]? = some (.newReadonly
        (if ctx.pool.tokenA = wsol then ctx.pool.tokenA else ctx.pool.tokenB) false) := by
  simp only [pumpSwapAccounts, bind_eq_ok_iff] at listed
  rcases listed with ⟨_, _, _, _, _, _, _, _, _, _, _, _, _, _, _, _, same⟩
  cases same
  refine ⟨rfl, rfl, ?_, ?_⟩
  · exact congrArg (fun key => some (AccountMeta.newReadonly key false)) (apply_ite Prod.fst _ _ _)
  · exact congrArg (fun key => some (AccountMeta.newReadonly key false)) (apply_ite Prod.snd _ _ _)

omit [FloatArith F] in
theorem buildDirectHops_each (cache : PoolStateCache) (tokenPrograms : HashMap Pubkey Pubkey)
    (hops : List (Hop F)) (amount : Nat) (ixs : List Instruction)
    (done : builder.buildDirectHops cache tokenPrograms amount hops = .ok ixs) :
    ixs.length = hops.length ∧ ∀ place hop, hops[place]? = some hop →
      ∃ ix, ixs[place]? = some ix ∧
        builder.buildDirectHop cache tokenPrograms (spentAt Hop.amountOut amount hops place) hop =
          .ok ix := by
  induction hops generalizing amount ixs with
  | nil =>
      cases done
      refine ⟨rfl, ?_⟩
      intro place hop found
      cases found
  | cons first rest ih =>
      simp only [buildDirectHops, bind_eq_ok_iff] at done
      rcases done with ⟨head, headDone, tail, tailDone, same⟩
      cases same
      rcases ih first.amountOut tail tailDone with ⟨length, each⟩
      refine ⟨by rw [List.length_cons, List.length_cons, length], ?_⟩
      intro place hop found
      cases place with
      | zero =>
          cases found
          exact ⟨head, rfl, headDone⟩
      | succ before =>
          rcases each before hop found with ⟨ix, here, hopDone⟩
          refine ⟨ix, here, ?_⟩
          rw [spentAt_cons]
          exact hopDone

/-- The hops for which the two builders ask for the same swap. -/
def MatchesDirect (hop : Hop F) (pool : DexPool) : Prop :=
  DexType.fromProgramId hop.dexProgram = .orcaWhirlpool ∨
    DexType.fromProgramId hop.dexProgram = .pumpSwap ∧ hop.tokenIn = pool.tokenA ∧
      pool.tokenA ≠ wsol

omit [FloatArith F] in
/-- Requests whose data differ in tag or minimum are not the same. -/
theorem not_sameSwap (dex : DexType) (heliosIx directIx : Instruction)
    (heliosSpends directSpends : Nat)
    (differ : heliosIx.data.take (tagLength dex) ≠ directIx.data.take (tagLength dex) ∨
      u64At (tagLength dex + 8) heliosIx.data ≠ u64At (tagLength dex + 8) directIx.data) :
    ¬ SameSwap dex heliosIx directIx heliosSpends directSpends := by
  intro ⟨first, second, readFirst, readSecond, _, _, tag, _, _, _, _, least⟩
  rcases readRequest_data .helios dex heliosIx first readFirst with ⟨firstTag, firstLeast⟩
  rcases readRequest_data .direct dex directIx second readSecond with ⟨secondTag, secondLeast⟩
  rcases differ with tags | leasts
  · exact tags (firstTag.symm.trans (tag.trans secondTag))
  · exact leasts (firstLeast.symm.trans (least.trans secondLeast))

theorem same_orca (heliosCtx directCtx : HopContext F) (sameHop : heliosCtx.hop = directCtx.hop)
    (samePool : heliosCtx.pool = directCtx.pool) (accounts : List AccountMeta)
    (listed : builder.orcaAccounts powf heliosCtx = .ok accounts) (data : List UInt8)
    (ix : Instruction) (done : builder.orcaDirectIx directCtx = .ok ix)
    (heliosSpends directSpends : Nat) (small : heliosSpends < 2 ^ 64)
    (smallDirect : directSpends < 2 ^ 64) (aToB : Bool) (arrays : Nat)
    (heliosIs : (swapInstruction accounts data).data =
      orcaSwapV2Data heliosSpends minOut aToB arrays)
    (directIs : ix.data = orcaSwapV2Data directSpends minOut aToB 0) :
    SameSwap .orcaWhirlpool (swapInstruction accounts data) ix heliosSpends directSpends := by
  rcases orcaAccounts_places powf builder heliosCtx accounts listed data with
    ⟨program, pool, first, second⟩
  rcases orcaDirectIx_accounts builder directCtx ix done with
    ⟨programDirect, poolDirect, firstDirect, secondDirect⟩
  rcases orcaSwapV2Data_split heliosSpends minOut aToB arrays with ⟨rest, split, turn⟩
  rcases orcaSwapV2Data_split directSpends minOut aToB 0 with ⟨restDirect, splitDirect, turnDirect⟩
  have least : minOut < 2 ^ 64 := by decide
  have readHelios := readRequest_of_data .helios .orcaWhirlpool _ _ _ _ _ _ heliosSpends minOut pool
    first second (heliosIs.trans split) rfl small least
  have readDirect := readRequest_of_data .direct .orcaWhirlpool ix _ _ _ _ _ directSpends minOut
    poolDirect firstDirect secondDirect (directIs.trans splitDirect) rfl smallDirect least
  refine ⟨_, _, readHelios, readDirect, ?_, ?_, rfl, ?_, ?_, rfl, rfl, rfl⟩
  · rw [program, programDirect, sameHop]
  · rw [sameHop]
  · rw [heliosIs, turn, directIs, turnDirect, samePool]
  · rw [heliosIs, turn, directIs, turnDirect, samePool]

omit [FloatArith F] in
/-- Both builders sell the pool's first token, unless that is WSOL: then the call
names the other one as the base. -/
theorem same_pumpSwap_iff (heliosCtx directCtx : HopContext F)
    (sameHop : heliosCtx.hop = directCtx.hop) (samePool : heliosCtx.pool = directCtx.pool)
    (program : directCtx.hop.dexProgram = DexPrograms.pumpswap)
    (different : directCtx.pool.tokenA ≠ directCtx.pool.tokenB) (accounts : List AccountMeta)
    (listed : builder.pumpSwapAccounts heliosCtx = .ok accounts) (data : List UInt8)
    (ix : Instruction) (done : builder.pumpSwapDirectIx directCtx = .ok ix)
    (heliosSpends directSpends : Nat) (small : heliosSpends < 2 ^ 64)
    (smallDirect : directSpends < 2 ^ 64)
    (heliosIs : (swapInstruction accounts data).data =
      pumpSwapSellDisc ++ (leBytes 8 heliosSpends ++ leBytes 8 minOut))
    (directIs : ix.data = pumpSwapSellDisc ++ (leBytes 8 directSpends ++ leBytes 8 minOut)) :
    SameSwap .pumpSwap (swapInstruction accounts data) ix heliosSpends directSpends ↔
      directCtx.pool.tokenA ≠ wsol := by
  rcases pumpSwapAccounts_places builder heliosCtx accounts listed data with
    ⟨programHelios, pool, first, second⟩
  rcases pumpSwapDirectIx_accounts builder directCtx ix done with
    ⟨programDirect, poolDirect, firstDirect, secondDirect⟩
  have least : minOut < 2 ^ 64 := by decide
  have sells : ∀ spent, turned .pumpSwap (pumpSwapSellDisc ++ (leBytes 8 spent ++ leBytes 8 minOut)) =
      false := by
    intro spent
    have start : (pumpSwapSellDisc ++ (leBytes 8 spent ++ leBytes 8 minOut)).take 8 =
        pumpSwapSellDisc := List.take_left' rfl
    rw [turned, start]
    decide
  have readHelios := readRequest_of_data .helios .pumpSwap _ _ _ _ pumpSwapSellDisc []
    heliosSpends minOut pool first second (by rw [List.append_nil]; exact heliosIs) rfl small least
  have readDirect := readRequest_of_data .direct .pumpSwap ix _ _ _ pumpSwapSellDisc []
    directSpends minOut poolDirect firstDirect secondDirect
    (by rw [List.append_nil]; exact directIs) rfl smallDirect least
  rw [heliosIs, sells, samePool, programHelios, sameHop] at readHelios
  rw [directIs, sells, programDirect, program] at readDirect
  constructor
  · intro ⟨_, _, readFirst, readSecond, _, _, _, given, _⟩ sol
    rw [← Option.some.inj (readHelios.symm.trans readFirst),
      ← Option.some.inj (readDirect.symm.trans readSecond)] at given
    change (if directCtx.pool.tokenA = wsol then directCtx.pool.tokenB else directCtx.pool.tokenA) =
      directCtx.pool.tokenA at given
    rw [if_pos sol] at given
    exact different given.symm
  · intro other
    refine ⟨_, _, readHelios, readDirect, rfl, rfl, rfl, ?_, ?_, rfl, rfl, rfl⟩
    · exact if_neg other
    · exact if_neg other

omit [FloatArith F] in
theorem buildDirectHop_ok (cache : PoolStateCache) (tokenPrograms : HashMap Pubkey Pubkey)
    (amount : Nat) (hop : Hop F) (pool : DexPool) (cached : cache.get hop.pool = some pool)
    (ix : Instruction) (done : builder.buildDirectHop cache tokenPrograms amount hop = .ok ix) :
    ∃ ctx : HopContext F, ctx.hop = hop ∧ ctx.pool = pool ∧ ctx.amountIn = amount ∧
      ctx.aToB = decide (hop.tokenIn = pool.tokenA) ∧
      builder.directIx (DexType.fromProgramId hop.dexProgram) ctx = .ok ix := by
  simp only [buildDirectHop, cached, bind_eq_ok_iff] at done
  rcases done with ⟨_, _, _, _, direct⟩
  exact ⟨_, rfl, rfl, rfl, rfl, direct⟩

omit [FloatArith F] in
/-- A direct swap calls a DEX. -/
theorem buildDirectHop_program (cache : PoolStateCache) (tokenPrograms : HashMap Pubkey Pubkey)
    (amount : Nat) (hop : Hop F) (ix : Instruction)
    (done : builder.buildDirectHop cache tokenPrograms amount hop = .ok ix) :
    DexType.fromProgramId ix.programId ≠ .unknown := by
  cases cached : cache.get hop.pool with
  | none =>
      rw [buildDirectHop, cached] at done
      cases done
  | some pool =>
      rcases buildDirectHop_ok builder cache tokenPrograms amount hop pool cached ix done with
        ⟨ctx, sameHop, -, -, -, direct⟩
      rcases directIx_spec builder _ ctx ix direct with ⟨known, sent, -⟩
      rw [sent, sameHop]
      exact known

/-- Other tags in front, and the swaps differ. -/
theorem not_sameSwap_of_tags (dex : DexType) (eight : tagLength dex = 8)
    (accounts : List AccountMeta) (data : List UInt8) (ix : Instruction)
    (heliosSpends directSpends : Nat) (called sent calledRest sentRest : List UInt8)
    (heliosIs : data = called ++ calledRest) (directIs : ix.data = sent ++ sentRest)
    (calledLong : called.length = 8) (sentLong : sent.length = 8) (differ : called ≠ sent) :
    ¬ SameSwap dex (swapInstruction accounts data) ix heliosSpends directSpends := by
  apply not_sameSwap
  left
  have first : (swapInstruction accounts data).data.take 8 = called := by
    rw [show (swapInstruction accounts data).data = data from rfl, heliosIs]
    exact List.take_left' calledLong
  have second : ix.data.take 8 = sent := by
    rw [directIs]
    exact List.take_left' sentLong
  rw [eight, first, second]
  exact differ

/-- One hop: an Orca swap is the same for both builders, a PumpSwap hop when it
sells a first token other than WSOL, a Raydium or Meteora hop never. -/
theorem sameSwap_iff_of_hop (cache : PoolStateCache) (tokenPrograms : HashMap Pubkey Pubkey)
    (hop : Hop F) (pool : DexPool) (cached : cache.get hop.pool = some pool)
    (hopIdx heliosSpends directSpends : Nat) (small : heliosSpends < 2 ^ 64)
    (smallDirect : directSpends < 2 ^ 64) (hopBuilt : BuiltHop)
    (helios : builder.buildHop powf cache tokenPrograms hopIdx heliosSpends hop = .ok hopBuilt)
    (ix : Instruction)
    (direct : builder.buildDirectHop cache tokenPrograms directSpends hop = .ok ix) :
    SameSwap (DexType.fromProgramId hop.dexProgram)
        (swapInstruction hopBuilt.accounts hopBuilt.data) ix heliosSpends directSpends ↔
      MatchesDirect hop pool := by
  have spec := hopBuilt_of_ok powf builder cache tokenPrograms hopIdx heliosSpends hop pool hopBuilt
    cached helios
  rcases checkTokens_spec hopIdx hop pool spec.tokens with ⟨differ, inside, outside⟩
  have different : pool.tokenA ≠ pool.tokenB := by
    intro same
    rw [same, or_self] at inside outside
    exact differ (inside.trans outside.symm)
  have written := spec.data
  rcases spec.accounts with ⟨ctx, sameHop, samePool, -, -, listed⟩
  rcases buildDirectHop_ok builder cache tokenPrograms directSpends hop pool cached ix direct with
    ⟨directCtx, directHop, directPool, spends, aToB, directDone⟩
  have directIs := (directIx_spec builder _ directCtx ix directDone).2.2
  rw [spends, aToB] at directIs
  have heliosIs : (swapInstruction hopBuilt.accounts hopBuilt.data).data = hopBuilt.data := rfl
  have known : DexType.fromProgramId hop.dexProgram ≠ .unknown := by
    intro unknown
    rw [unknown] at written
    cases written
  have program := program_of_fromProgramId hop.dexProgram known
  rw [MatchesDirect]
  cases dex : DexType.fromProgramId hop.dexProgram with
  | orcaWhirlpool =>
      rw [dex] at written listed directDone directIs
      refine iff_of_true ?_ (Or.inl rfl)
      exact same_orca powf builder ctx directCtx (sameHop.trans directHop.symm)
        (samePool.trans directPool.symm) hopBuilt.accounts listed hopBuilt.data ix directDone
        heliosSpends directSpends small smallDirect _ _ (Except.ok.inj written).symm directIs
  | pumpSwap =>
      rw [dex] at written listed directDone directIs program
      by_cases sells : hop.tokenIn = pool.tokenA
      · rw [decide_eq_true sells] at written
        have same := same_pumpSwap_iff builder ctx directCtx (sameHop.trans directHop.symm)
          (samePool.trans directPool.symm) (directHop ▸ program) (directPool ▸ different)
          hopBuilt.accounts listed hopBuilt.data ix directDone heliosSpends directSpends small
          smallDirect (Except.ok.inj written).symm directIs
        rw [same, directPool]
        simp [sells]
      · rw [decide_eq_false sells] at written
        have bought := (Except.ok.inj written).symm
        refine iff_of_false (not_sameSwap_of_tags .pumpSwap rfl _ _ ix _ _ pumpSwapBuyDisc
          pumpSwapSellDisc _ _ bought directIs rfl rfl (by decide)) ?_
        simp [sells]
  | meteoraDlmm =>
      rw [dex] at written directIs
      have called := (Except.ok.inj written).symm
      refine iff_of_false (not_sameSwap_of_tags .meteoraDlmm rfl _ _ ix _ _ meteoraSwapDisc
        orcaSwapDisc _ _ called directIs rfl rfl (by decide)) ?_
      simp
  | raydiumAmmV4 =>
      rw [dex] at written directIs
      have leasts : u64At 9 (swapInstruction hopBuilt.accounts hopBuilt.data).data ≠
          u64At 9 ix.data := by
        have called : u64At 9 hopBuilt.data = minOut := by
          rw [← Except.ok.inj written]
          have shifted := ofLeBytes_at (9 :: leBytes 8 heliosSpends) [] minOut (by decide)
          rw [List.length_cons, leBytes_length, List.append_nil] at shifted
          exact shifted
        have sent := direct_raydium_minOut directSpends (decide (hop.tokenIn = pool.tokenA))
        rw [heliosIs, called, directIs]
        exact Nat.ne_of_lt sent
      refine iff_of_false (not_sameSwap .raydiumAmmV4 _ ix _ _ (Or.inr leasts)) ?_
      simp
  | raydiumClmm => rw [dex] at written; cases written
  | fluxbeam => rw [dex] at written; cases written
  | saber => rw [dex] at written; cases written
  | raydiumCpmm => rw [dex] at written; cases written
  | unknown => exact absurd dex known

omit [FloatArith F] in
theorem spentAt_lt (next : Hop F → Nat) (borrowAmount : Nat) (hops : List (Hop F))
    (small : borrowAmount < 2 ^ 64) (each : ∀ hop ∈ hops, next hop < 2 ^ 64) (place : Nat) :
    spentAt next borrowAmount hops place < 2 ^ 64 := by
  cases place with
  | zero => exact small
  | succ before =>
      rw [spentAt]
      cases found : hops[before]? with
      | none => norm_num
      | some hop => exact each hop (List.mem_of_getElem? found)

omit [FloatArith F] in
theorem safeOut_lt (hop : Hop F) : safeOut hop < 2 ^ 64 := by
  have capped : min (hop.amountOut * 95) u64Max ≤ u64Max := Nat.min_le_right _ _
  rw [safeOut, saturatingMul64]
  rw [u64Max] at capped ⊢
  omega

omit [FloatArith F] in
/-- The direct swaps stand together in the list around them. -/
theorem swaps_infix_of_shape (borrowAmount : Nat) (userTokenAccount : Pubkey)
    (provider : FlashProvider) (swapIxs ixs : List Instruction) (precedingIxCount : Nat)
    (shape : Shape builder borrowAmount userTokenAccount provider (.direct swapIxs)
      precedingIxCount ixs) : swapIxs <:+: ixs := by
  cases provider with
  | marginFi =>
      rcases shape with ⟨_, _, _, same⟩
      exact ⟨_, _, same.symm⟩
  | solend =>
      rcases shape with ⟨_, _, same⟩
      exact ⟨_, _, same.symm⟩
  | kamino =>
      rcases shape with ⟨_, _, _, same⟩
      exact ⟨_, _, same.symm⟩
  | portFinance =>
      rcases shape with ⟨_, _, _, _, _, wraps, _⟩
      cases wraps

/-- A route that both builders take: what each of them makes of every hop. -/
theorem hops_built (route : RouteParams F) (cache : PoolStateCache)
    (tokenPrograms : HashMap Pubkey Pubkey) (userTokenAccount : Pubkey) (heliosIx : Instruction)
    (helios : builder.buildHeliosInstruction powf route userTokenAccount cache tokenPrograms =
      .ok heliosIx) (fees : PriorityFees F) (provider : FlashProvider)
    (tipIx : Option Instruction) (tx : List Instruction)
    (direct : builder.buildDirectSwapTx env fees route provider cache tipIx tokenPrograms =
      .ok tx) :
    ∃ hops swapIxs, heliosIx.accounts.drop 4 = hops.flatMap BuiltHop.accounts ∧
      heliosIx.data = executeFlashArbDiscriminator ++ (flashArbArgs route hops).serialize ∧
      swapIxs <:+: tx ∧ hops.length = route.hops.length ∧ swapIxs.length = route.hops.length ∧
      ∀ place hop, route.hops[place]? = some hop → ∃ pool hopBuilt swapIx,
        cache.get hop.pool = some pool ∧ hops[place]? = some hopBuilt ∧
        swapIxs[place]? = some swapIx ∧
        builder.buildHop powf cache tokenPrograms (0 + place)
          (spentAt safeOut route.borrowAmount route.hops place) hop = .ok hopBuilt ∧
        builder.buildDirectHop cache tokenPrograms
          (spentAt Hop.amountOut route.borrowAmount route.hops place) hop = .ok swapIx := by
  rcases buildHeliosInstruction_ok powf builder cache route userTokenAccount tokenPrograms heliosIx
    helios with ⟨hops, hopsBuilt, accounts, data⟩
  rcases buildTx_ok powf env builder (.direct fees route cache tokenPrograms) provider tipIx tx
    direct with ⟨before, ixs, wrapping, borrowMint, user, same, _, ⟨swapIxs, wraps, swapsBuilt⟩,
      wrapped⟩
  rw [wraps] at wrapped
  have inside := swaps_infix_of_shape builder route.borrowAmount user provider swapIxs ixs _
    (shape_of_built env builder borrowMint route.borrowAmount user provider (.direct swapIxs) _ ixs
      wrapped)
  rcases buildHops_each powf builder cache tokenPrograms route.hops 0 route.borrowAmount hops
    hopsBuilt with ⟨heliosLength, heliosEach⟩
  rcases buildDirectHops_each builder cache tokenPrograms route.hops route.borrowAmount swapIxs
    swapsBuilt with ⟨directLength, directEach⟩
  refine ⟨hops, swapIxs, accounts, data, ?_, heliosLength, directLength, ?_⟩
  · rw [same]
    exact inside.trans ⟨before, _, rfl⟩
  · intro place hop found
    rcases heliosEach place hop found with ⟨hopBuilt, hopAt, heliosDone⟩
    rcases directEach place hop found with ⟨swapIx, swapAt, directDone⟩
    cases cached : cache.get hop.pool with
    | none =>
        rw [buildDirectHop, cached] at directDone
        cases directDone
    | some pool => exact ⟨pool, hopBuilt, swapIx, rfl, hopAt, swapAt, heliosDone, directDone⟩

/-- Where both builders succeed, the two swaps of each hop are the same exactly for
the hops that match. -/
theorem same_swap_iff (route : RouteParams F) (cache : PoolStateCache)
    (tokenPrograms : HashMap Pubkey Pubkey) (small : route.borrowAmount < 2 ^ 64)
    (quotes : ∀ hop ∈ route.hops, hop.amountOut < 2 ^ 64) (userTokenAccount : Pubkey)
    (heliosIx : Instruction)
    (helios : builder.buildHeliosInstruction powf route userTokenAccount cache tokenPrograms =
      .ok heliosIx) (fees : PriorityFees F) (provider : FlashProvider)
    (tipIx : Option Instruction) (tx : List Instruction)
    (direct : builder.buildDirectSwapTx env fees route provider cache tipIx tokenPrograms =
      .ok tx) :
    ∃ hops swapIxs, heliosIx.accounts.drop 4 = hops.flatMap BuiltHop.accounts ∧
      heliosIx.data = executeFlashArbDiscriminator ++ (flashArbArgs route hops).serialize ∧
      swapIxs <:+: tx ∧ hops.length = route.hops.length ∧ swapIxs.length = route.hops.length ∧
      ∀ place hop, route.hops[place]? = some hop → ∃ pool hopBuilt swapIx,
        cache.get hop.pool = some pool ∧ hops[place]? = some hopBuilt ∧
        swapIxs[place]? = some swapIx ∧
        (SameSwap (DexType.fromProgramId hop.dexProgram)
            (swapInstruction hopBuilt.accounts hopBuilt.data) swapIx
            (spentAt safeOut route.borrowAmount route.hops place)
            (spentAt Hop.amountOut route.borrowAmount route.hops place) ↔
          MatchesDirect hop pool) := by
  rcases hops_built powf env builder route cache tokenPrograms userTokenAccount heliosIx helios fees
    provider tipIx tx direct with ⟨hops, swapIxs, accounts, data, inside, heliosLength,
      directLength, each⟩
  refine ⟨hops, swapIxs, accounts, data, inside, heliosLength, directLength, ?_⟩
  intro place hop found
  rcases each place hop found with ⟨pool, hopBuilt, swapIx, cached, hopAt, swapAt, heliosDone,
    directDone⟩
  refine ⟨pool, hopBuilt, swapIx, cached, hopAt, swapAt, ?_⟩
  exact sameSwap_iff_of_hop powf builder cache tokenPrograms hop pool cached (0 + place) _ _
    (spentAt_lt safeOut _ _ small (fun hop _ => safeOut_lt hop) place)
    (spentAt_lt Hop.amountOut _ _ small quotes place) hopBuilt heliosDone swapIx directDone

end Builders

/-! The two-hop Raydium route again, built both ways. -/

section Sample

open Executability

def firstHop : Hop Double := ⟨.ofNat 1, DexPrograms.raydiumAmmV4, wsol, .ofNat (2 ^ 255), 100, ⟨0⟩⟩

def calledHop : BuiltHop :=
  ((constantBuilder.buildHop firstArgument sampleCache HashMap.empty 0 100 firstHop).toOption).getD
    ⟨[], []⟩

def directHop : Instruction :=
  ((constantBuilder.buildDirectHop sampleCache HashMap.empty 100 firstHop).toOption).getD
    ⟨default, [], []⟩

def sampleDirectTx : List Instruction :=
  ((constantBuilder.buildDirectSwapTx sampleEnv ⟨⟨10⟩, 1000, 5000⟩ sampleRoute .kamino sampleCache
    none HashMap.empty).toOption).getD []

/-- The direct instruction spells its tag in eight bytes where the program reads one. -/
theorem raydium_swaps_differ :
    ¬ ∀ hopBuilt swapIx,
      constantBuilder.buildHop firstArgument sampleCache HashMap.empty 0 100 firstHop =
        .ok hopBuilt →
      constantBuilder.buildDirectHop sampleCache HashMap.empty 100 firstHop = .ok swapIx →
      SameSwap (DexType.fromProgramId firstHop.dexProgram)
        (swapInstruction hopBuilt.accounts hopBuilt.data) swapIx 100 100 := by
  intro law
  have built : constantBuilder.buildHop firstArgument sampleCache HashMap.empty 0 100 firstHop =
      .ok calledHop := eq_ok_of_isSome _ _ (by decide +kernel)
  have direct : constantBuilder.buildDirectHop sampleCache HashMap.empty 100 firstHop =
      .ok directHop := eq_ok_of_isSome _ _ (by decide +kernel)
  have raydium : DexType.fromProgramId firstHop.dexProgram = .raydiumAmmV4 := by
    decide +kernel
  have leasts : u64At (tagLength .raydiumAmmV4 + 8)
      (swapInstruction calledHop.accounts calledHop.data).data ≠
      u64At (tagLength .raydiumAmmV4 + 8) directHop.data := by
    decide +kernel
  have same := law _ _ built direct
  rw [raydium] at same
  exact not_sameSwap .raydiumAmmV4 _ _ _ _ (Or.inr leasts) same

theorem sampleRoute_quotes : ∀ hop ∈ sampleRoute.hops, hop.amountOut < 2 ^ 64 := by
  intro hop member
  rcases List.mem_pair.mp member with same | same
  · exact lt_of_eq_of_lt (congrArg Hop.amountOut same) (by norm_num)
  · exact lt_of_eq_of_lt (congrArg Hop.amountOut same) (by norm_num)

theorem sample_same_swap_iff :
    ∃ hops swapIxs, sampleHeliosIx.accounts.drop 4 = hops.flatMap BuiltHop.accounts ∧
      sampleHeliosIx.data =
        executeFlashArbDiscriminator ++ (flashArbArgs sampleRoute hops).serialize ∧
      swapIxs <:+: sampleDirectTx ∧ hops.length = sampleRoute.hops.length ∧
      swapIxs.length = sampleRoute.hops.length ∧
      ∀ place hop, sampleRoute.hops[place]? = some hop → ∃ pool hopBuilt swapIx,
        sampleCache.get hop.pool = some pool ∧ hops[place]? = some hopBuilt ∧
        swapIxs[place]? = some swapIx ∧
        (SameSwap (DexType.fromProgramId hop.dexProgram)
            (swapInstruction hopBuilt.accounts hopBuilt.data) swapIx
            (spentAt safeOut sampleRoute.borrowAmount sampleRoute.hops place)
            (spentAt Hop.amountOut sampleRoute.borrowAmount sampleRoute.hops place) ↔
          MatchesDirect hop pool) :=
  same_swap_iff firstArgument sampleEnv constantBuilder sampleRoute sampleCache HashMap.empty
    (by decide) sampleRoute_quotes (.ofNat 9) sampleHeliosIx sampleHeliosIx_built
    ⟨⟨10⟩, 1000, 5000⟩ .kamino none sampleDirectTx (eq_ok_of_isSome _ _ (by decide +kernel))

end Sample

end Helios.VenueSwap
