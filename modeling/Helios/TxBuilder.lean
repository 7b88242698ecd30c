import Helios.Borsh
import Helios.CrossDex

/-! The executor's transaction builder, up to the instruction it sends to the
on-chain program. Address derivation (`find_program_address`) is a parameter.
Tick and bin indices stay far from the `i32` and `i64` limits. -/

namespace Helios

open Machine

namespace Pubkey

/-- The Base58 text of a key: one `1` for each leading zero byte. -/
def display (key : Pubkey) : String :=
  let zeros := (key.toBytes.takeWhile (fun byte => byte = 0)).length
  String.ofList (List.replicate zeros '1' ++
    ((Nat.digits 58 key.toNat).reverse.map (fun digit => base58Alphabet.getD digit '1')))

end Pubkey

def DexType.debug : DexType → String
  | .raydiumAmmV4 => "RaydiumAmmV4"
  | .raydiumClmm => "RaydiumClmm"
  | .orcaWhirlpool => "OrcaWhirlpool"
  | .meteoraDlmm => "MeteoraDlmm"
  | .pumpSwap => "PumpSwap"
  | .fluxbeam => "Fluxbeam"
  | .saber => "Saber"
  | .raydiumCpmm => "RaydiumCpmm"
  | .unknown => "Unknown"

structure AccountMeta where
  pubkey : Pubkey
  isSigner : Bool
  isWritable : Bool
  deriving DecidableEq

namespace AccountMeta

def new (pubkey : Pubkey) (isSigner : Bool) : AccountMeta := ⟨pubkey, isSigner, true⟩

def newReadonly (pubkey : Pubkey) (isSigner : Bool) : AccountMeta := ⟨pubkey, isSigner, false⟩

end AccountMeta

structure Instruction where
  programId : Pubkey
  accounts : List AccountMeta
  data : List UInt8
  deriving DecidableEq

inductive BuildError where
  | poolNotInCache
  | sameToken (hop : Nat) (token : Pubkey)
  | tokenInNotInPool (hop : Nat) (token pool tokenA tokenB : Pubkey)
  | tokenOutNotInPool (hop : Nat) (token pool tokenA tokenB : Pubkey)
  | metaMissing (dex : String)
  | metadataIncomplete (dex : String) (pool : Pubkey)
  | notYetSupported (dex : DexType)
  | swapDataNotImplemented (dex : DexType)
  | derive (address : String)
  /-- A panic: the source stops the process instead of returning an error. -/
  | abort
  deriving DecidableEq

namespace BuildError

def message : BuildError → String
  | poolNotInCache => "pool not in cache"
  | sameToken hop token =>
      "hop " ++ toString hop ++ " token_in == token_out (" ++ token.display ++ "), invalid route"
  | tokenInNotInPool hop token pool tokenA tokenB =>
      "hop " ++ toString hop ++ " token_in " ++ token.display ++ " not in pool " ++ pool.display ++
        " (token_a=" ++ tokenA.display ++ ", token_b=" ++ tokenB.display ++ ")"
  | tokenOutNotInPool hop token pool tokenA tokenB =>
      "hop " ++ toString hop ++ " token_out " ++ token.display ++ " not in pool " ++ pool.display ++
        " (token_a=" ++ tokenA.display ++ ", token_b=" ++ tokenB.display ++ ")"
  | metaMissing dex => dex ++ " meta missing"
  | metadataIncomplete dex pool => dex ++ " metadata incomplete for pool " ++ pool.display
  | notYetSupported dex => "DEX " ++ dex.debug ++ " not yet supported by helios tx builder"
  | swapDataNotImplemented dex => "swap data for " ++ dex.debug ++ " not implemented"
  | derive address => "derive " ++ address ++ " PDA"
  | abort => ""

end BuildError

def tokenProgramId : Pubkey := .parse "TokenkegQfeZyiNwAJbNbGKPFXCWuBvf9Ss623VQ5DA"
def associatedTokenProgramId : Pubkey := .parse "ATokenGPvbdGVxr1b2hvZbsiqW5xWH25efTNsLJA8knL"
def meteoraEventAuthority : Pubkey := .parse "D8cy77uS2nZBWbS99Z6qc9CDjyYvPbcE969RYdhDkkE"
def memoProgramId : Pubkey := .parse "MemoSq4gqABAXKb96qnH8TysNcWxMyWCqXgDLGmfcHr"
def pumpswapProtocolFeeRecipient : Pubkey := .parse "62qc2CNXwrYqQScmEdiZFFAnJR262PxWEuNQtxfafNgV"
def systemProgramId : Pubkey := default

/-- The arguments of `execute_flash_arb`. -/
structure ExecuteFlashArbArgs where
  borrowAmount : Nat
  minProfit : Nat
  hopAccountCounts : List UInt8
  hopData : List (List UInt8)
  deriving DecidableEq

namespace ExecuteFlashArbArgs

open Borsh

def serialize (args : ExecuteFlashArbArgs) : List UInt8 :=
  leBytes 8 args.borrowAmount ++ (leBytes 8 args.minProfit ++
    (writeVec (fun byte => [byte]) args.hopAccountCounts ++
      writeVec (writeVec (fun byte => [byte])) args.hopData))

/-- `try_from_slice`: nothing may be left over. -/
def tryFromSlice (bytes : List UInt8) : Option ExecuteFlashArbArgs := do
  let (borrowAmount, bytes) ← readNat 8 bytes
  let (minProfit, bytes) ← readNat 8 bytes
  let (hopAccountCounts, bytes) ← readVec readByte bytes
  let (hopData, bytes) ← readVec (readVec readByte) bytes
  if bytes = [] then some ⟨borrowAmount, minProfit, hopAccountCounts, hopData⟩ else none

/-- Every vector fits its 32-bit length, every amount its 64 bits. -/
structure Fits (args : ExecuteFlashArbArgs) : Prop where
  borrowAmount : args.borrowAmount < 2 ^ 64
  minProfit : args.minProfit < 2 ^ 64
  counts : args.hopAccountCounts.length < 2 ^ 32
  hops : args.hopData.length < 2 ^ 32
  data : ∀ data ∈ args.hopData, data.length < 2 ^ 32

theorem tryFromSlice_serialize (args : ExecuteFlashArbArgs) (fits : args.Fits) :
    tryFromSlice args.serialize = some args := by
  have bytes : ∀ values : List UInt8, values.length < 2 ^ 32 →
      RoundTrips (writeVec (fun byte => [byte])) (readVec readByte) values :=
    fun values short => readVec_roundTrips _ _ values short (fun byte _ => readByte_roundTrips byte)
  have borrow := readNat_roundTrips 8 args.borrowAmount
    (lt_of_lt_of_eq fits.borrowAmount (by norm_num))
  have profit := readNat_roundTrips 8 args.minProfit
    (lt_of_lt_of_eq fits.minProfit (by norm_num))
  have counts := bytes args.hopAccountCounts fits.counts
  have hops := readVec_roundTrips _ _ args.hopData fits.hops
    (fun data member => bytes data (fits.data data member)) []
  rw [List.append_nil] at hops
  rw [tryFromSlice, serialize, borrow]
  simp only [Option.bind_eq_bind, Option.bind_some, profit _, counts _, hops, if_true]

end ExecuteFlashArbArgs

/-- `global:execute_flash_arb`. -/
def executeFlashArbDiscriminator : List UInt8 := [55, 189, 43, 168, 168, 89, 43, 57]

/-- The executor's reading of its own instruction, for lenders that carry the
plan in another program's instruction. -/
def decodeHeliosFlashArbArgs (heliosIx : Instruction) : Option ExecuteFlashArbArgs :=
  if heliosIx.data.length < 8 then none
  else
    (ExecuteFlashArbArgs.tryFromSlice (heliosIx.data.drop 8)).filter
      (fun args => args.borrowAmount ≠ 0)

/-! Swap data, one layout a DEX. -/

def minSqrtPriceX64 : Nat := 4295048016
def maxSqrtPriceX64 : Nat := 79226673515401279992447579055

/-- `OrcaAccountsType::SupplementalTickArrays`, the seventh variant. -/
def supplementalTickArraysTag : UInt8 := 6

def orcaSwapV2Data (amountIn minOut : Nat) (aToB : Bool) (supplementalTickArrays : Nat) :
    List UInt8 :=
  [43, 4, 237, 11, 26, 201, 30, 98] ++ leBytes 8 amountIn ++ leBytes 8 minOut ++
    leBytes 16 (if aToB then minSqrtPriceX64 else maxSqrtPriceX64) ++ [1] ++
    [if aToB then 1 else 0] ++
    (if 0 < supplementalTickArrays then
      [1] ++ leBytes 4 1 ++ [supplementalTickArraysTag, UInt8.ofNat supplementalTickArrays]
    else [0])

def buildSwapData (dex : DexType) (amountIn minOut : Nat) (aToB : Bool)
    (orcaSupplementalTickArrays : Nat) : Except BuildError (List UInt8) :=
  match dex with
  | .raydiumAmmV4 => .ok (9 :: (leBytes 8 amountIn ++ leBytes 8 minOut))
  | .orcaWhirlpool => .ok (orcaSwapV2Data amountIn minOut aToB orcaSupplementalTickArrays)
  | .meteoraDlmm =>
      .ok ([248, 198, 244, 145, 90, 24, 30, 227] ++ (leBytes 8 amountIn ++ leBytes 8 minOut))
  | .pumpSwap =>
      -- sell or buy, told by the direction in the pool and not by the WSOL side
      .ok ((if aToB then [51, 230, 133, 164, 1, 127, 131, 173] else [102, 6, 61, 18, 1, 218, 235, 234])
        ++ (leBytes 8 amountIn ++ leBytes 8 minOut))
  | dex => .error (.swapDataNotImplemented dex)

/-! The tick arrays of a Whirlpool swap and the bin arrays of a DLMM swap. -/

section Arrays

variable {F : Type} [FloatArith F] (powf : F → F → F)

/-- Tick arrays a swap may touch are asked for in sequence, five of them. -/
def extendTickArrays (step : Int) : Nat → List Int → List Int
  | 0, starts => starts
  | fuel + 1, starts =>
      if starts.length < 5 then
        let next := starts.getLastD 0 + step
        if next ∈ starts then starts else extendTickArrays step fuel (starts ++ [next])
      else starts

def dedupStarts (starts : List Int) : List Int :=
  starts.foldl (fun kept start => if start ∈ kept then kept else kept ++ [start]) []

def orderedTickArrayStarts (orca : OrcaMetadata) (amountIn feeBps : Nat) (aToB : Bool) :
    List Int :=
  let start := Orca.tickArrayStartIndex orca.tickCurrentIndex orca.tickSpacing
  let offset := Orca.tickArrayOffset orca.tickSpacing
  let orderedStarts :=
    if orca.tickArrays.entries ≠ [] then
      (Orca.quoteExactIn powf amountIn aToB orca.sqrtPrice orca.liquidity orca.tickCurrentIndex
        orca.tickSpacing feeBps orca.tickArrays).traversedArrays
    else [start]
  let orderedStarts := if orderedStarts = [] then [start] else orderedStarts
  let orderedStarts :=
    if orderedStarts.head? = some start then orderedStarts else start :: orderedStarts
  extendTickArrays (if aToB then -offset else offset) 5 (dedupStarts orderedStarts)

def meteoraBinIdToArrayIndex (binId : Int) : Int :=
  let idx := binId.tdiv 70
  let rem := binId.tmod 70
  if binId < 0 ∧ rem ≠ 0 then idx - 1 else idx

def meteoraBinArrayIndices (meteora : MeteoraMetadata) (aToB : Bool) : List Int :=
  let current := meteoraBinIdToArrayIndex meteora.activeId
  let direction : Int := if aToB then -1 else 1
  let kept := (meteora.binArrays.keys.filter (fun index =>
    if aToB then decide (index ≤ current) else decide (current ≤ index))).mergeSort
      (fun left right => decide (left ≤ right))
  let indices := if aToB then kept.reverse else kept
  if indices = [] then [current, current + direction, current + direction * 2] else indices

end Arrays

structure TxBuilder where
  payer : Pubkey
  heliosProgram : Pubkey
  /-- `find_program_address` and `try_find_program_address`: seeds, then program. -/
  findProgramAddress : List (List UInt8) → Pubkey → Option Pubkey

namespace TxBuilder

variable (builder : TxBuilder)

def seedText (text : String) : List UInt8 := text.toUTF8.toList

/-- `find_program_address`, which panics where no address is off the curve. -/
def address (seeds : List (List UInt8)) (program : Pubkey) : Except BuildError Pubkey :=
  match builder.findProgramAddress seeds program with
  | some key => .ok key
  | none => .error .abort

/-- `try_find_program_address` with the context its caller adds. -/
def tryAddress (what : String) (seeds : List (List UInt8)) (program : Pubkey) :
    Except BuildError Pubkey :=
  match builder.findProgramAddress seeds program with
  | some key => .ok key
  | none => .error (.derive what)

def associatedTokenAddressWithProgram (owner mint tokenProgram : Pubkey) :
    Except BuildError Pubkey :=
  builder.address [owner.toBytes, tokenProgram.toBytes, mint.toBytes] associatedTokenProgramId

def associatedTokenAddress (owner mint : Pubkey) : Except BuildError Pubkey :=
  builder.associatedTokenAddressWithProgram owner mint tokenProgramId

def deriveOrcaOracle (whirlpool : Pubkey) : Except BuildError Pubkey :=
  builder.tryAddress "Orca oracle" [seedText "oracle", whirlpool.toBytes] DexPrograms.orcaWhirlpool

def deriveOrcaWhirlpoolAuthority (whirlpool : Pubkey) : Except BuildError Pubkey :=
  builder.tryAddress "Whirlpool authority" [seedText "whirlpool", whirlpool.toBytes]
    DexPrograms.orcaWhirlpool

def deriveOrcaTickArray (whirlpool : Pubkey) (startTickIndex : Int) : Except BuildError Pubkey :=
  builder.tryAddress "Orca tick array"
    [seedText "tick_array", whirlpool.toBytes, seedText (toString startTickIndex)]
    DexPrograms.orcaWhirlpool

def deriveMeteoraOracle (lbPair : Pubkey) : Except BuildError Pubkey :=
  builder.tryAddress "Meteora oracle" [seedText "oracle", lbPair.toBytes] DexPrograms.meteoraDlmm

def deriveMeteoraBinArray (lbPair : Pubkey) (binArrayIndex : Int) : Except BuildError Pubkey :=
  builder.tryAddress "Meteora bin array"
    [seedText "bin_array", lbPair.toBytes, leBytes 8 (binArrayIndex % 2 ^ 64).toNat]
    DexPrograms.meteoraDlmm

/-- Three primary and two supplemental arrays; indexing past the end panics. -/
def deriveOrcaTickArrays (whirlpool : Pubkey) (starts : List Int) :
    Except BuildError (List Pubkey × List Pubkey) :=
  match starts with
  | first :: second :: third :: fourth :: fifth :: _ => do
      let primary ← [first, second, third].mapM (builder.deriveOrcaTickArray whirlpool)
      let supplemental ← [fourth, fifth].mapM (builder.deriveOrcaTickArray whirlpool)
      return (primary, supplemental)
  | _ => .error .abort

/-- What a hop's account list is made from. -/
structure HopContext (F : Type) where
  hop : Hop F
  pool : DexPool
  amountIn : Nat
  aToB : Bool
  progIn : Pubkey
  progOut : Pubkey
  userSource : Pubkey
  userDestination : Pubkey

section Hops

variable {F : Type} [FloatArith F] (powf : F → F → F)

/-- A market account of a pool that has not been hydrated. -/
def marketAccountsKnown (raydium : RaydiumMetadata) : Bool :=
  !decide (raydium.marketProgram = default ∨ raydium.marketEventQueue = default ∨
    raydium.marketBids = default ∨ raydium.marketAsks = default ∨
    raydium.marketBaseVault = default ∨ raydium.marketQuoteVault = default ∨
    raydium.marketVaultSigner = default)

def raydiumAccounts (ctx : HopContext F) : Except BuildError (List AccountMeta) :=
  match ctx.pool.raydiumMeta with
  | none => .error (.metaMissing "Raydium")
  | some raydium =>
      if marketAccountsKnown raydium then
        .ok [
          .newReadonly ctx.hop.dexProgram false,
          .newReadonly tokenProgramId false,
          .new ctx.hop.pool false,
          .newReadonly raydium.authority false,
          .new raydium.openOrders false,
          .new raydium.vaultA false,
          .new raydium.vaultB false,
          .newReadonly raydium.marketProgram false,
          .new raydium.marketId false,
          .new raydium.marketBids false,
          .new raydium.marketAsks false,
          .new raydium.marketEventQueue false,
          .new raydium.marketBaseVault false,
          .new raydium.marketQuoteVault false,
          .newReadonly raydium.marketVaultSigner false,
          .new ctx.userSource false,
          .new ctx.userDestination false,
          .newReadonly builder.payer true]
      else .error (.metadataIncomplete "Raydium" ctx.hop.pool)

def orcaAccounts (ctx : HopContext F) : Except BuildError (List AccountMeta) :=
  match ctx.pool.orcaMeta with
  | none => .error (.metaMissing "Orca")
  | some orca =>
      if orca.tickSpacing = 0 then .error (.metadataIncomplete "Orca" ctx.hop.pool)
      else do
        let tokenOwnerAccountA ← builder.associatedTokenAddress builder.payer ctx.pool.tokenA
        let tokenOwnerAccountB ← builder.associatedTokenAddress builder.payer ctx.pool.tokenB
        let tickArrays ← builder.deriveOrcaTickArrays ctx.hop.pool
          (orderedTickArrayStarts powf orca ctx.amountIn ctx.pool.feeBps ctx.aToB)
        let _ ← builder.deriveOrcaWhirlpoolAuthority ctx.hop.pool
        let oracle ← builder.deriveOrcaOracle ctx.hop.pool
        return [
          .newReadonly ctx.hop.dexProgram false,
          .newReadonly tokenProgramId false,
          .newReadonly tokenProgramId false,
          .newReadonly memoProgramId false,
          .newReadonly builder.payer true,
          .new ctx.hop.pool false,
          .newReadonly ctx.pool.tokenA false,
          .newReadonly ctx.pool.tokenB false,
          .new tokenOwnerAccountA false,
          .new orca.tokenVaultA false,
          .new tokenOwnerAccountB false,
          .new orca.tokenVaultB false] ++
          tickArrays.1.map (fun tickArray => .new tickArray false) ++
          [.new oracle false] ++
          tickArrays.2.map (fun tickArray => .new tickArray false)

def meteoraAccounts (ctx : HopContext F) : Except BuildError (List AccountMeta) :=
  match ctx.pool.meteoraMeta with
  | none => .error (.metaMissing "Meteora")
  | some meteora => do
      let binArrays ← (meteoraBinArrayIndices meteora ctx.aToB).mapM
        (builder.deriveMeteoraBinArray ctx.hop.pool)
      let oracle ← builder.deriveMeteoraOracle ctx.hop.pool
      return [
        .newReadonly ctx.hop.dexProgram false,
        .new ctx.hop.pool false,
        .new meteora.tokenVaultA false,
        .new meteora.tokenVaultB false,
        .new ctx.userSource false,
        .new ctx.userDestination false,
        .newReadonly ctx.pool.tokenA false,
        .newReadonly ctx.pool.tokenB false,
        .new oracle false,
        .newReadonly builder.payer true,
        .newReadonly tokenProgramId false,
        .newReadonly meteoraEventAuthority false,
        .newReadonly ctx.hop.dexProgram false] ++
        binArrays.map (fun binArray => .new binArray false)

def pumpSwapAccounts (ctx : HopContext F) : Except BuildError (List AccountMeta) := do
  let pumpswap := DexPrograms.pumpswap
  let (baseMint, quoteMint) :=
    if ctx.pool.tokenA = wsol then (ctx.pool.tokenB, ctx.pool.tokenA)
    else (ctx.pool.tokenA, ctx.pool.tokenB)
  let globalConfig ← builder.address [seedText "global_config"] pumpswap
  let eventAuthority ← builder.address [seedText "__event_authority"] pumpswap
  let poolBaseVault ← builder.associatedTokenAddress ctx.hop.pool baseMint
  let poolQuoteVault ← builder.associatedTokenAddress ctx.hop.pool quoteMint
  let protocolFeeBase ← builder.associatedTokenAddress pumpswapProtocolFeeRecipient baseMint
  let protocolFeeQuote ← builder.associatedTokenAddress pumpswapProtocolFeeRecipient quoteMint
  let userBaseAta ← builder.associatedTokenAddressWithProgram builder.payer baseMint
    (min ctx.progIn ctx.progOut)
  let userQuoteAta ← builder.associatedTokenAddressWithProgram builder.payer quoteMint
    (max ctx.progIn ctx.progOut)
  return [
    .newReadonly pumpswap false,
    .new ctx.hop.pool false,
    .newReadonly globalConfig false,
    .newReadonly baseMint false,
    .newReadonly quoteMint false,
    .new poolBaseVault false,
    .new poolQuoteVault false,
    .newReadonly pumpswapProtocolFeeRecipient false,
    .new protocolFeeBase false,
    .new protocolFeeQuote false,
    .new builder.payer true,
    .new userBaseAta false,
    .new userQuoteAta false,
    .newReadonly systemProgramId false,
    .newReadonly tokenProgramId false,
    .newReadonly associatedTokenProgramId false,
    .newReadonly eventAuthority false,
    .newReadonly pumpswap false]

def hopAccounts (dex : DexType) (ctx : HopContext F) : Except BuildError (List AccountMeta) :=
  match dex with
  | .raydiumAmmV4 => builder.raydiumAccounts ctx
  | .orcaWhirlpool => builder.orcaAccounts powf ctx
  | .meteoraDlmm => builder.meteoraAccounts ctx
  | .pumpSwap => builder.pumpSwapAccounts ctx
  | dex => .error (.notYetSupported dex)

/-- The direction checks, the first thing asked of a hop's pool. -/
def checkTokens (hopIdx : Nat) (hop : Hop F) (pool : DexPool) : Except BuildError Unit :=
  if hop.tokenIn = hop.tokenOut then .error (.sameToken hopIdx hop.tokenIn)
  else if hop.tokenIn ≠ pool.tokenA ∧ hop.tokenIn ≠ pool.tokenB then
    .error (.tokenInNotInPool hopIdx hop.tokenIn hop.pool pool.tokenA pool.tokenB)
  else if hop.tokenOut ≠ pool.tokenA ∧ hop.tokenOut ≠ pool.tokenB then
    .error (.tokenOutNotInPool hopIdx hop.tokenOut hop.pool pool.tokenA pool.tokenB)
  else .ok ()

structure BuiltHop where
  accounts : List AccountMeta
  data : List UInt8
  deriving DecidableEq

def tokenProgramOf (tokenPrograms : HashMap Pubkey Pubkey) (mint : Pubkey) : Pubkey :=
  (HashMap.get tokenPrograms mint).getD tokenProgramId

/-- `min_out` is 1 in every mode. -/
def minOut : Nat := 1

def orcaSupplementalTickArrays (dex : DexType) : Nat := if dex = .orcaWhirlpool then 2 else 0

def buildHop (cache : PoolStateCache) (tokenPrograms : HashMap Pubkey Pubkey) (hopIdx : Nat)
    (currentAmountIn : Nat) (hop : Hop F) : Except BuildError BuiltHop :=
  match cache.get hop.pool with
  | none => .error .poolNotInCache
  | some pool => do
      let dex := DexType.fromProgramId hop.dexProgram
      checkTokens hopIdx hop pool
      let progIn := tokenProgramOf tokenPrograms hop.tokenIn
      let progOut := tokenProgramOf tokenPrograms hop.tokenOut
      let userSource ← builder.associatedTokenAddressWithProgram builder.payer hop.tokenIn progIn
      let userDestination ←
        builder.associatedTokenAddressWithProgram builder.payer hop.tokenOut progOut
      let aToB := decide (hop.tokenIn = pool.tokenA)
      let accounts ← builder.hopAccounts powf dex
        ⟨hop, pool, currentAmountIn, aToB, progIn, progOut, userSource, userDestination⟩
      let data ← buildSwapData dex currentAmountIn minOut aToB (orcaSupplementalTickArrays dex)
      return ⟨accounts, data⟩

/-- What the next hop spends: 95 % of the quote recorded for this one. -/
def safeOut (hop : Hop F) : Nat := saturatingMul64 hop.amountOut 95 / 100

/-- The loop over the hops, with its index and its running amount. -/
def buildHops (cache : PoolStateCache) (tokenPrograms : HashMap Pubkey Pubkey) :
    Nat → Nat → List (Hop F) → Except BuildError (List BuiltHop)
  | _, _, [] => .ok []
  | hopIdx, currentAmountIn, hop :: rest => do
      let built ← builder.buildHop powf cache tokenPrograms hopIdx currentAmountIn hop
      let others ← buildHops cache tokenPrograms (hopIdx + 1) (safeOut hop) rest
      return built :: others

def flashArbArgs (route : RouteParams F) (hops : List BuiltHop) : ExecuteFlashArbArgs where
  borrowAmount := route.borrowAmount
  minProfit := 0
  hopAccountCounts := hops.map (fun hop => UInt8.ofNat hop.accounts.length)
  hopData := hops.map BuiltHop.data

def buildHeliosInstruction (route : RouteParams F) (userTokenAccount : Pubkey)
    (cache : PoolStateCache) (tokenPrograms : HashMap Pubkey Pubkey) :
    Except BuildError Instruction := do
  let hops ← builder.buildHops powf cache tokenPrograms 0 route.borrowAmount route.hops
  let configPda ← builder.address [seedText "config"] builder.heliosProgram
  return {
    programId := builder.heliosProgram
    accounts := [
      .new builder.payer true,
      .new userTokenAccount false,
      .newReadonly configPda false,
      .newReadonly tokenProgramId false] ++ hops.flatMap BuiltHop.accounts
    data := executeFlashArbDiscriminator ++ (flashArbArgs route hops).serialize }

end Hops

end TxBuilder

end Helios
