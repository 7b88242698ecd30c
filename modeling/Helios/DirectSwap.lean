import Helios.FlashLoans

/-! The transactions the executor assembles: compute budget, token accounts, the
loan around the swap, and a tip. A transaction is the list of instructions handed
to the message compiler, which keeps their order. -/

namespace Helios

open FlashLoans Machine

inductive TxError where
  | noHops
  | build (error : BuildError)
  | flash (error : FlashError)
  | directMetaMissing (what : String)
  | directIncomplete (pool : Pubkey)
  | directNotSupported (dex : DexType)
  deriving DecidableEq

def TxError.message : TxError → String
  | noHops => "route has no hops"
  | build error => error.message
  | flash error => error.message
  | directMetaMissing what => what
  | directIncomplete pool => "Orca metadata incomplete for direct swap pool " ++ pool.display
  | directNotSupported dex =>
      "Direct swap not supported for " ++ dex.debug ++ ", use helios-arb CPI"

namespace TxBuilder

def computeBudgetProgramId : Pubkey := .parse "ComputeBudget111111111111111111111111111111"
def pumpswapGlobalConfig : Pubkey := .parse "ADyA8hdefbFUHRNUTC6V2JNsFp6WqXyKcWVr2AfjFLaT"
def pumpswapEventAuthority : Pubkey := .parse "Ce6TQqeHC9p8KetsN6JsjHK7UTZk7nasjjnr7XxXp9F1"

def setComputeUnitLimit (units : Nat) : Instruction :=
  ⟨computeBudgetProgramId, [], 2 :: leBytes 4 units⟩

def setComputeUnitPrice (microLamports : Nat) : Instruction :=
  ⟨computeBudgetProgramId, [], 3 :: leBytes 8 microLamports⟩

/-- The priority settings: a share of the profit, and its bounds. -/
structure PriorityFees (F : Type) where
  pct : F
  floor : Nat
  ceil : Nat

def liftBuild {α : Type} (result : Except BuildError α) : Except TxError α :=
  result.mapError TxError.build

def liftFlash {α : Type} (result : Except FlashError α) : Except TxError α :=
  result.mapError TxError.flash

section Assembly

variable {F : Type} [FloatArith F] (powf : F → F → F) (env : FlashEnv) (builder : TxBuilder)

open FloatArith in
def priorityFee (fees : PriorityFees F) (netProfit : Int) (cuLimit : Nat) : Nat :=
  let budget := toU64 (div (mul (ofInt (max netProfit 0)) fees.pct) (ofNat 100))
  let dynamicFee := saturatingMul64 budget 1000000 / cuLimit
  min (max dynamicFee fees.floor) fees.ceil

def computeBudget (fees : PriorityFees F) (route : RouteParams F) (cuLimit : Nat) :
    List Instruction :=
  [setComputeUnitLimit cuLimit, setComputeUnitPrice (priorityFee fees route.netProfit cuLimit)]

/-- The address is the one under the plain token program, whichever is named. -/
def buildCreateAtaIdempotentIx (payer owner mint tokenProgram : Pubkey) :
    Except BuildError Instruction := do
  let ata ← builder.associatedTokenAddress owner mint
  return {
    programId := associatedTokenProgramId
    accounts := [
      .new payer true,
      .new ata false,
      .newReadonly owner false,
      .newReadonly mint false,
      .newReadonly systemProgramId false,
      .newReadonly tokenProgram false]
    data := [1] }

def routeMints (route : RouteParams F) : List Pubkey :=
  (route.hops.flatMap (fun hop => [hop.tokenIn, hop.tokenOut])).foldl
    (fun seen mint => if mint ∈ seen then seen else seen ++ [mint]) []

def buildAtaSetupInstructions (route : RouteParams F) (tokenPrograms : HashMap Pubkey Pubkey) :
    Except BuildError (List Instruction) :=
  (routeMints route).mapM (fun mint =>
    builder.buildCreateAtaIdempotentIx builder.payer builder.payer mint
      (tokenProgramOf tokenPrograms mint))

def borrowMintOf (route : RouteParams F) : Except TxError Pubkey :=
  match route.hops with
  | [] => .error .noHops
  | hop :: _ => .ok hop.tokenIn

/-- `build`, `build_with_tip` and their cached and simulated forms: the swaps run
inside the on-chain program. -/
def buildInnerCached (fees : PriorityFees F) (route : RouteParams F)
    (flashProvider : FlashProvider) (cache : PoolStateCache) (tipIx : Option Instruction)
    (tokenPrograms : HashMap Pubkey Pubkey) : Except TxError (List Instruction) := do
  let borrowMint ← borrowMintOf route
  let userTokenAccount ← liftBuild (builder.associatedTokenAddressWithProgram builder.payer
    borrowMint (tokenProgramOf tokenPrograms borrowMint))
  let heliosIx ← liftBuild
    (builder.buildHeliosInstruction powf route userTokenAccount cache tokenPrograms)
  let atas ← liftBuild (builder.buildAtaSetupInstructions route tokenPrograms)
  let preceding := computeBudget fees route 400000 ++ atas
  let wrapped ← liftFlash (buildWrappedInstructions env builder borrowMint route.borrowAmount
    userTokenAccount flashProvider heliosIx preceding.length)
  return preceding ++ wrapped ++ tipIx.toList

/-- Swaps found elsewhere, in a loan of WSOL. A Kamino loan takes no tip. -/
def buildJupiterFlashTx (jupiterSwapIxs : List Instruction) (borrowAmount : Nat)
    (flashProvider : FlashProvider) (tipIx : Option Instruction) :
    Except TxError (List Instruction) := do
  let userTokenAccount ← liftBuild
    (builder.associatedTokenAddressWithProgram builder.payer wsol tokenProgramId)
  let preceding := [setComputeUnitLimit 1000000, setComputeUnitPrice 1000]
  let wrapped ← liftFlash (buildWrappedInstructionsDirect env builder wsol borrowAmount
    userTokenAccount flashProvider jupiterSwapIxs preceding.length)
  return preceding ++ wrapped ++ (if flashProvider ≠ .kamino then tipIx.toList else [])

/-! The swaps of the direct path, one instruction a hop. -/

def raydiumDirectIx (ctx : HopContext F) : Except TxError Instruction :=
  match ctx.pool.raydiumMeta with
  | none => .error (.directMetaMissing "Raydium meta")
  | some raydium => .ok {
      programId := ctx.hop.dexProgram
      accounts := [
        .newReadonly tokenProgramId false,
        .new ctx.hop.pool false,
        .newReadonly raydium.authority false,
        .new raydium.openOrders false,
        .new raydium.targetOrders false,
        .new raydium.vaultA false,
        .new raydium.vaultB false,
        .newReadonly raydium.marketProgram false,
        .new raydium.marketId false,
        .new raydium.marketBids false,
        .new raydium.marketAsks false,
        .new raydium.marketEventQueue false,
        .new raydium.marketBaseVault false,
        .new raydium.marketQuoteVault false,
        .newReadonly raydium.marketVaultSigner false,
        .new ctx.userSource false,
        .new ctx.userDestination false,
        .newReadonly builder.payer true]
      -- eight bytes of tag here, one byte in `buildSwapData`
      data := [9, 0, 0, 0, 0, 0, 0, 0] ++ (leBytes 8 ctx.amountIn ++ leBytes 8 minOut) }

def pumpSwapDirectIx (ctx : HopContext F) : Except TxError Instruction := do
  let poolVaultA ← liftBuild (builder.associatedTokenAddress ctx.hop.pool ctx.pool.tokenA)
  let poolVaultB ← liftBuild (builder.associatedTokenAddress ctx.hop.pool ctx.pool.tokenB)
  let protocolFee ← liftBuild
    (builder.associatedTokenAddress pumpswapProtocolFeeRecipient ctx.pool.tokenB)
  return {
    programId := ctx.hop.dexProgram
    accounts := [
      .new ctx.hop.pool false,
      .new builder.payer true,
      .newReadonly pumpswapGlobalConfig false,
      .newReadonly ctx.pool.tokenA false,
      .newReadonly ctx.pool.tokenB false,
      .new ctx.userSource false,
      .new ctx.userDestination false,
      .new poolVaultA false,
      .new poolVaultB false,
      .new pumpswapProtocolFeeRecipient false,
      .new protocolFee false,
      .newReadonly ctx.progIn false,
      .newReadonly ctx.progOut false,
      .newReadonly systemProgramId false,
      .newReadonly associatedTokenProgramId false,
      .newReadonly pumpswapEventAuthority false,
      .newReadonly ctx.hop.dexProgram false]
    -- a sale, whichever way the hop goes
    data := [51, 230, 133, 164, 1, 127, 131, 173] ++ (leBytes 8 ctx.amountIn ++ leBytes 8 minOut) }

def meteoraDirectIx (ctx : HopContext F) : Except TxError Instruction :=
  match ctx.pool.meteoraMeta with
  | none => .error (.directMetaMissing "Meteora meta")
  | some meteora => do
      let binArrays ← liftBuild (meteora.binArrays.keys.mapM (fun index =>
        builder.address [seedText "bin_array", ctx.hop.pool.toBytes,
          leBytes 8 (index % 2 ^ 64).toNat] DexPrograms.meteoraDlmm))
      return {
        programId := ctx.hop.dexProgram
        accounts := [
          .new ctx.hop.pool false,
          .newReadonly DexPrograms.meteoraDlmm false,
          .newReadonly builder.payer true,
          .new meteora.tokenVaultA false,
          .new meteora.tokenVaultB false,
          .new ctx.userSource false,
          .new ctx.userDestination false,
          .newReadonly ctx.progIn false,
          .newReadonly ctx.progOut false,
          .newReadonly meteoraEventAuthority false,
          .newReadonly DexPrograms.meteoraDlmm false] ++
          binArrays.map (fun binArray => .new binArray false)
        data := [248, 198, 158, 145, 225, 117, 135, 200] ++
          (leBytes 8 ctx.amountIn ++ leBytes 8 minOut) }

def orcaDirectIx (ctx : HopContext F) : Except TxError Instruction :=
  match ctx.pool.orcaMeta with
  | none => .error (.directMetaMissing "Orca meta for direct swap")
  | some orca =>
      if orca.tickSpacing = 0 then .error (.directIncomplete ctx.hop.pool)
      else do
        let tokenOwnerA ← liftBuild
          (builder.associatedTokenAddressWithProgram builder.payer ctx.pool.tokenA ctx.progIn)
        let tokenOwnerB ← liftBuild
          (builder.associatedTokenAddressWithProgram builder.payer ctx.pool.tokenB ctx.progOut)
        let oracle ← liftBuild (builder.deriveOrcaOracle ctx.hop.pool)
        let offset := Orca.tickArrayOffset orca.tickSpacing
        let start := Orca.tickArrayStartIndex orca.tickCurrentIndex orca.tickSpacing
        let direction : Int := if ctx.aToB then -1 else 1
        let tickArrays ← liftBuild ([start, start + direction * offset,
          start + direction * offset + direction * offset].mapM
            (builder.deriveOrcaTickArray ctx.hop.pool))
        let data ← liftBuild (buildSwapData .orcaWhirlpool ctx.amountIn minOut ctx.aToB 0)
        return {
          programId := ctx.hop.dexProgram
          accounts := [
            .newReadonly tokenProgramId false,
            .newReadonly tokenProgramId false,
            .newReadonly memoProgramId false,
            .newReadonly builder.payer true,
            .new ctx.hop.pool false,
            .newReadonly ctx.pool.tokenA false,
            .newReadonly ctx.pool.tokenB false,
            .new tokenOwnerA false,
            .new orca.tokenVaultA false,
            .new tokenOwnerB false,
            .new orca.tokenVaultB false] ++
            tickArrays.map (fun tickArray => .new tickArray false) ++
            [.new oracle false]
          data := data }

def directIx (dex : DexType) (ctx : HopContext F) : Except TxError Instruction :=
  match dex with
  | .raydiumAmmV4 => builder.raydiumDirectIx ctx
  | .pumpSwap => builder.pumpSwapDirectIx ctx
  | .meteoraDlmm => builder.meteoraDirectIx ctx
  | .orcaWhirlpool => builder.orcaDirectIx ctx
  | dex => .error (.directNotSupported dex)

/-- No check of the hop's tokens against the pool. -/
def buildDirectHop (cache : PoolStateCache) (tokenPrograms : HashMap Pubkey Pubkey)
    (currentAmount : Nat) (hop : Hop F) : Except TxError Instruction :=
  match cache.get hop.pool with
  | none => .error (.build .poolNotInCache)
  | some pool => do
      let progIn := tokenProgramOf tokenPrograms hop.tokenIn
      let progOut := tokenProgramOf tokenPrograms hop.tokenOut
      let userSource ← liftBuild
        (builder.associatedTokenAddressWithProgram builder.payer hop.tokenIn progIn)
      let userDestination ← liftBuild
        (builder.associatedTokenAddressWithProgram builder.payer hop.tokenOut progOut)
      builder.directIx (DexType.fromProgramId hop.dexProgram)
        ⟨hop, pool, currentAmount, decide (hop.tokenIn = pool.tokenA), progIn, progOut, userSource,
          userDestination⟩

/-- The next hop spends all that this one is quoted to pay. -/
def buildDirectHops (cache : PoolStateCache) (tokenPrograms : HashMap Pubkey Pubkey) :
    Nat → List (Hop F) → Except TxError (List Instruction)
  | _, [] => .ok []
  | currentAmount, hop :: rest => do
      let swapIx ← builder.buildDirectHop cache tokenPrograms currentAmount hop
      let others ← buildDirectHops cache tokenPrograms hop.amountOut rest
      return swapIx :: others

def buildDirectSwapTx (fees : PriorityFees F) (route : RouteParams F)
    (flashProvider : FlashProvider) (cache : PoolStateCache) (tipIx : Option Instruction)
    (tokenPrograms : HashMap Pubkey Pubkey) : Except TxError (List Instruction) := do
  let borrowMint ← borrowMintOf route
  let userBorrowAta ← liftBuild (builder.associatedTokenAddressWithProgram builder.payer
    borrowMint (tokenProgramOf tokenPrograms borrowMint))
  let atas ← liftBuild (builder.buildAtaSetupInstructions route tokenPrograms)
  let preceding := computeBudget fees route 250000 ++ atas
  let swapIxs ← builder.buildDirectHops cache tokenPrograms route.borrowAmount route.hops
  let wrapped ← liftFlash (buildWrappedInstructionsDirect env builder borrowMint
    route.borrowAmount userBorrowAta flashProvider swapIxs preceding.length)
  return preceding ++ wrapped ++ tipIx.toList

end Assembly

end TxBuilder

end Helios
