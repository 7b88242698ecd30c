import Helios.TxBuilder

/-! The lenders' instructions around a swap. Settings come from environment
variables and files; their lookup and the parsing of addresses are parameters. -/

namespace Helios

open Machine

inductive FlashProvider where
  | marginFi
  | portFinance
  | solend
  | kamino
  deriving DecidableEq

namespace FlashProvider

def feeBps : FlashProvider → Nat
  | .marginFi => 0
  | .portFinance => 9
  | .solend => 30
  | .kamino => 1

def debug : FlashProvider → String
  | .marginFi => "MarginFi"
  | .portFinance => "PortFinance"
  | .solend => "Solend"
  | .kamino => "Kamino"

end FlashProvider

namespace FlashLoans

def marginfiProgramId : Pubkey := .parse "MFv2hWf31Z9kbCa1snEPYctwafyhdvnV7FZnsebVacA"
def portProgramId : Pubkey := .parse "Port7uDYB3wk6GJAw4KT1WpTeMtSu9bTcChBHkX2LfR"
def solendProgramId : Pubkey := .parse "So1endDq2YkqhipRh3WViPa8hdiSpxWy6z3Z6tMCpAo"
def kaminoProgramId : Pubkey := .parse "KLend2g3cP87fffoy8q1mQqGKjrxjC8boSyAYavgmjD"
def portFlashReceiverProgramId : Pubkey := .parse "Hwrv5nizU3MWRbmDswt1Z2uwbGjhoJbz88chJnsyHDVi"
def instructionsSysvarId : Pubkey := .parse "Sysvar1nstructions1111111111111111111111111"

inductive FlashError where
  | missingEnv (keys : List String)
  | invalidPubkey (key : String)
  | unsupportedMint (mint : Pubkey)
  | directNotSupported (provider : FlashProvider)
  | missingOracle (bank : Pubkey)
  | heliosConfigMissing
  | payloadTooShort
  | argsUndecodable
  | zeroBorrow
  /-- A panic: the source stops the process instead of returning an error. -/
  | abort
  deriving DecidableEq

def FlashError.message : FlashError → String
  | missingEnv keys => "missing env var " ++ String.intercalate " or " keys
  | invalidPubkey key => "invalid pubkey in " ++ key
  | unsupportedMint mint => "unsupported flash-loan mint: " ++ mint.display
  | directNotSupported provider => "Direct swap mode not supported for " ++ provider.debug
  | missingOracle bank => "missing oracle mapping for MarginFi bank " ++ bank.display
  | heliosConfigMissing => "helios config account missing"
  | payloadTooShort => "helios instruction payload too short"
  | argsUndecodable => "failed to decode helios execute_flash_arb args"
  | zeroBorrow => "helios borrow amount cannot be zero"
  | abort => ""

/-- The settings a key names, and the reading of an address. -/
structure FlashEnv where
  lookupConfigValue : String → Option String
  parsePubkey : String → Option Pubkey

section Settings

variable (env : FlashEnv)

def parseRaw (key raw : String) : Except FlashError Pubkey :=
  match env.parsePubkey raw with
  | some pubkey => .ok pubkey
  | none => .error (.invalidPubkey key)

def parseEnvPubkey (key : String) : Except FlashError Pubkey :=
  match env.lookupConfigValue key with
  | some raw => parseRaw env key raw
  | none => .error (.missingEnv [key])

/-- The first key that is set decides. -/
def parseEnvPubkeyAliases (keys : List String) : Except FlashError Pubkey :=
  match keys.findSome? (fun key => (env.lookupConfigValue key).map (fun raw => (key, raw))) with
  | some (key, raw) => parseRaw env key raw
  | none => .error (.missingEnv keys)

def parseOptionalEnvPubkey (key : String) : Except FlashError (Option Pubkey) :=
  match env.lookupConfigValue key with
  | some raw => (parseRaw env key raw).map some
  | none => .ok none

/-- `char::is_whitespace`. -/
def isWhitespace (char : Char) : Bool :=
  let code := char.toNat
  (0x9 ≤ code && code ≤ 0xD) || code = 0x20 || code = 0x85 || code = 0xA0 || code = 0x1680 ||
    (0x2000 ≤ code && code ≤ 0x200A) || code = 0x2028 || code = 0x2029 || code = 0x202F ||
    code = 0x205F || code = 0x3000

def trim (text : List Char) : List Char :=
  ((text.dropWhile isWhitespace).reverse.dropWhile isWhitespace).reverse

def parseEnvPubkeysCsv (key : String) : Except FlashError (List Pubkey) :=
  match env.lookupConfigValue key with
  | none => .ok []
  | some raw =>
      (((raw.toList.splitOn ',').map trim).filter (fun value => value ≠ [])).mapM
        (fun value => parseRaw env key (String.ofList value))

def mintEnvSuffix (mint : Pubkey) : Except FlashError String :=
  if mint = wsol then .ok "SOL"
  else if mint = usdc then .ok "USDC"
  else .error (.unsupportedMint mint)

structure MarginfiConfig where
  group : Pubkey
  marginfiAccount : Pubkey
  bank : Pubkey
  liquidityVault : Pubkey
  oracle : Pubkey

structure SolendConfig where
  reserve : Pubkey
  liquiditySupply : Pubkey
  feeReceiver : Pubkey
  hostFeeReceiver : Option Pubkey
  lendingMarket : Pubkey

structure KaminoConfig where
  reserve : Pubkey
  liquiditySupply : Pubkey
  feeVault : Pubkey
  lendingMarket : Pubkey

structure PortConfig where
  reserve : Pubkey
  liquiditySupply : Pubkey
  feeReceiver : Pubkey
  hostFeeReceiver : Option Pubkey
  lendingMarket : Pubkey
  receiverProgram : Pubkey

def resolveMarginfiConfig (mint : Pubkey) : Except FlashError MarginfiConfig := do
  let suffix ← mintEnvSuffix mint
  let group ← parseEnvPubkeyAliases env ["MARGINFI_GROUP", "MARGINFI_MAIN_GROUP"]
  let marginfiAccount ← parseEnvPubkey env "MARGINFI_ACCOUNT"
  let bank ← parseEnvPubkey env ("MARGINFI_" ++ suffix ++ "_BANK")
  let liquidityVault ← parseEnvPubkey env ("MARGINFI_" ++ suffix ++ "_LIQUIDITY_VAULT")
  let oracle ← parseEnvPubkey env ("MARGINFI_" ++ suffix ++ "_ORACLE")
  return ⟨group, marginfiAccount, bank, liquidityVault, oracle⟩

def resolveSolendConfig (mint : Pubkey) : Except FlashError SolendConfig := do
  let suffix ← mintEnvSuffix mint
  let reserve ← parseEnvPubkey env ("SOLEND_" ++ suffix ++ "_RESERVE")
  let liquiditySupply ← parseEnvPubkey env ("SOLEND_" ++ suffix ++ "_LIQUIDITY_SUPPLY")
  let feeReceiver ← parseEnvPubkey env ("SOLEND_" ++ suffix ++ "_FEE_RECEIVER")
  let hostFeeReceiver ← parseOptionalEnvPubkey env ("SOLEND_" ++ suffix ++ "_HOST_FEE_RECEIVER")
  let lendingMarket ← parseEnvPubkey env ("SOLEND_" ++ suffix ++ "_LENDING_MARKET")
  return ⟨reserve, liquiditySupply, feeReceiver, hostFeeReceiver, lendingMarket⟩

def resolveKaminoConfig (mint : Pubkey) : Except FlashError KaminoConfig := do
  let suffix ← mintEnvSuffix mint
  let reserve ← parseEnvPubkey env ("KAMINO_" ++ suffix ++ "_RESERVE")
  let liquiditySupply ← parseEnvPubkeyAliases env
    ["KAMINO_" ++ suffix ++ "_LIQUIDITY_SUPPLY", "KAMINO_" ++ suffix ++ "_LIQUIDITY_VAULT"]
  let feeVault ← parseEnvPubkey env ("KAMINO_" ++ suffix ++ "_FEE_VAULT")
  let lendingMarket ← parseEnvPubkeyAliases env
    ["KAMINO_" ++ suffix ++ "_LENDING_MARKET", "KAMINO_MAIN_MARKET"]
  return ⟨reserve, liquiditySupply, feeVault, lendingMarket⟩

/-- Whatever is wrong with the receiver's setting, the built-in one is used. -/
def resolvePortReceiver : Pubkey :=
  match parseEnvPubkeyAliases env ["PORT_FLASH_RECEIVER_PROGRAM", "PORT_RECEIVER_PROGRAM"] with
  | .ok program => program
  | .error _ => portFlashReceiverProgramId

def resolvePortConfig (mint : Pubkey) : Except FlashError PortConfig := do
  let suffix ← mintEnvSuffix mint
  let reserve ← parseEnvPubkey env ("PORT_" ++ suffix ++ "_RESERVE")
  let liquiditySupply ← parseEnvPubkey env ("PORT_" ++ suffix ++ "_LIQUIDITY_SUPPLY")
  let feeReceiver ← parseEnvPubkey env ("PORT_" ++ suffix ++ "_FEE_RECEIVER")
  let hostFeeReceiver ← parseOptionalEnvPubkey env ("PORT_" ++ suffix ++ "_HOST_FEE_RECEIVER")
  let lendingMarket ← parseEnvPubkeyAliases env
    ["PORT_" ++ suffix ++ "_LENDING_MARKET", "PORT_MAIN_MARKET"]
  return ⟨reserve, liquiditySupply, feeReceiver, hostFeeReceiver, lendingMarket,
    resolvePortReceiver env⟩

/-! The health accounts at the end of a MarginFi loan. -/

structure MarginfiHealthBank where
  bank : Pubkey
  oracle : Pubkey
  deriving DecidableEq

def resolveMarginfiOracle (bank : Pubkey) : Except FlashError Pubkey := do
  let solBank ← parseEnvPubkey env "MARGINFI_SOL_BANK"
  if bank = solBank then parseEnvPubkey env "MARGINFI_SOL_ORACLE"
  else do
    let usdcBank ← parseEnvPubkey env "MARGINFI_USDC_BANK"
    if bank = usdcBank then parseEnvPubkey env "MARGINFI_USDC_ORACLE"
    else .error (.missingOracle bank)

def parseMarginfiActiveBanks : Except FlashError (List MarginfiHealthBank) := do
  let banks ← parseEnvPubkeysCsv env "MARGINFI_ACTIVE_BANKS"
  banks.mapM (fun bank => do
    let oracle ← resolveMarginfiOracle env bank
    return ⟨bank, oracle⟩)

def marginfiProjectedActiveBanks (borrowBank borrowOracle : Pubkey) :
    Except FlashError (List MarginfiHealthBank) := do
  let banks ← parseMarginfiActiveBanks env
  if banks.any (fun bank => bank.bank = borrowBank) then return banks
  else return banks ++ [⟨borrowBank, borrowOracle⟩]

/-- Bank and oracle, the banks from the greatest address down. -/
def composeMarginfiHealthAccounts (banks : List MarginfiHealthBank) : List Pubkey :=
  (banks.mergeSort (fun left right => decide (right.bank ≤ left.bank))).flatMap
    (fun bank => [bank.bank, bank.oracle])

end Settings

/-! The instructions of each lender. -/

def marginfiStartFlashloanData (endIndex : Nat) : List UInt8 :=
  [14, 131, 33, 220, 81, 186, 180, 107] ++ leBytes 8 endIndex

def marginfiBorrowData (amount : Nat) : List UInt8 :=
  [4, 126, 116, 53, 48, 5, 212, 31] ++ leBytes 8 amount

def marginfiEndFlashloanData : List UInt8 := [105, 124, 201, 106, 153, 2, 8, 156]

def marginfiBeginIx (cfg : MarginfiConfig) (payer : Pubkey) (endIndex : Nat) : Instruction where
  programId := marginfiProgramId
  accounts := [
    .new cfg.marginfiAccount false,
    .newReadonly payer true,
    .newReadonly instructionsSysvarId false]
  data := marginfiStartFlashloanData endIndex

def marginfiBorrowIx (cfg : MarginfiConfig) (payer userTokenAccount vaultAuthority : Pubkey)
    (borrowAmount : Nat) : Instruction where
  programId := marginfiProgramId
  accounts := [
    .newReadonly cfg.group false,
    .new cfg.marginfiAccount false,
    .newReadonly payer true,
    .new cfg.bank false,
    .new userTokenAccount false,
    .newReadonly vaultAuthority false,
    .new cfg.liquidityVault false,
    .newReadonly tokenProgramId false]
  data := marginfiBorrowData borrowAmount

def marginfiEndIx (cfg : MarginfiConfig) (payer : Pubkey) (others : List Pubkey) :
    Instruction where
  programId := marginfiProgramId
  accounts := [.new cfg.marginfiAccount false, .newReadonly payer true] ++
    others.map (fun pubkey => .newReadonly pubkey false)
  data := marginfiEndFlashloanData

def solendBorrowIx (cfg : SolendConfig) (userTokenAccount marketAuthority : Pubkey)
    (borrowAmount : Nat) : Instruction where
  programId := solendProgramId
  accounts := [
    .new cfg.liquiditySupply false,
    .new userTokenAccount false,
    .new cfg.reserve false,
    .newReadonly cfg.lendingMarket false,
    .newReadonly marketAuthority false,
    .newReadonly instructionsSysvarId false,
    .newReadonly tokenProgramId false]
  data := 19 :: leBytes 8 borrowAmount

def solendRepayIx (cfg : SolendConfig) (payer userTokenAccount : Pubkey) (borrowAmount : Nat)
    (borrowIxIndex : UInt8) : Instruction where
  programId := solendProgramId
  accounts := [
    .new userTokenAccount false,
    .new cfg.liquiditySupply false,
    .new cfg.feeReceiver false,
    .new (cfg.hostFeeReceiver.getD userTokenAccount) false,
    .new cfg.reserve false,
    .newReadonly cfg.lendingMarket false,
    .newReadonly payer true,
    .newReadonly instructionsSysvarId false,
    .newReadonly tokenProgramId false]
  data := 20 :: (leBytes 8 borrowAmount ++ [borrowIxIndex])

def kaminoBorrowDiscriminator : List UInt8 := [135, 231, 52, 167, 7, 52, 212, 193]
def kaminoDirectBorrowDiscriminator : List UInt8 := [2, 218, 138, 235, 79, 201, 25, 102]
def kaminoRepayDiscriminator : List UInt8 := [185, 117, 0, 203, 96, 245, 180, 186]

/-- The accounts of both ends of a Kamino loan around a call of the program. -/
def kaminoAccounts (cfg : KaminoConfig) (payer borrowMint userTokenAccount marketAuthority : Pubkey) :
    List AccountMeta := [
  .newReadonly payer true,
  .newReadonly marketAuthority false,
  .newReadonly cfg.lendingMarket false,
  .new cfg.reserve false,
  .newReadonly borrowMint false,
  .new cfg.liquiditySupply false,
  .new userTokenAccount false,
  .new cfg.feeVault false,
  .newReadonly kaminoProgramId false,
  .newReadonly kaminoProgramId false,
  .newReadonly instructionsSysvarId false,
  .newReadonly tokenProgramId false]

/-- The accounts of both ends of a Kamino loan around direct swaps. -/
def kaminoDirectAccounts (cfg : KaminoConfig) (userTokenAccount : Pubkey) : List AccountMeta := [
  .new cfg.reserve false,
  .newReadonly cfg.lendingMarket false,
  .new cfg.liquiditySupply false,
  .new cfg.feeVault false,
  .new userTokenAccount false,
  .newReadonly instructionsSysvarId false]

def kaminoBorrowIx (discriminator : List UInt8) (accounts : List AccountMeta)
    (borrowAmount : Nat) : Instruction where
  programId := kaminoProgramId
  accounts := accounts
  data := discriminator ++ leBytes 8 borrowAmount

def kaminoRepayIx (accounts : List AccountMeta) (borrowAmount : Nat) (borrowIxIndex : UInt8) :
    Instruction where
  programId := kaminoProgramId
  accounts := accounts
  data := kaminoRepayDiscriminator ++ (leBytes 8 borrowAmount ++ [borrowIxIndex])

/-! The plan a Port loan carries to its receiver. -/

inductive PortFlashReceiverInstruction where
  | receiveFlashLoan (repayAmount : Nat)
  | carryPlan (minProfit : Nat) (hopAccountCounts : List UInt8) (hopData : List (List UInt8))
  deriving DecidableEq

open Borsh in
def PortFlashReceiverInstruction.serialize : PortFlashReceiverInstruction → List UInt8
  | .receiveFlashLoan repayAmount => 0 :: leBytes 8 repayAmount
  | .carryPlan minProfit hopAccountCounts hopData =>
      1 :: (leBytes 8 minProfit ++ (writeVec (fun byte => [byte]) hopAccountCounts ++
        writeVec (writeVec (fun byte => [byte])) hopData))

def portFlashIx (cfg : PortConfig) (userTokenAccount marketAuthority : Pubkey)
    (borrowAmount : Nat) (callbackAccounts : List AccountMeta) : Instruction where
  programId := portProgramId
  accounts := [
    .new cfg.liquiditySupply false,
    .new userTokenAccount false,
    .new cfg.reserve false,
    .new cfg.feeReceiver false,
    .new (cfg.hostFeeReceiver.getD userTokenAccount) false,
    .newReadonly cfg.lendingMarket false,
    .newReadonly marketAuthority false,
    .newReadonly tokenProgramId false,
    .newReadonly cfg.receiverProgram false] ++ callbackAccounts
  data := 13 :: leBytes 8 borrowAmount

def portCarrierIx (cfg : PortConfig) (plan : ExecuteFlashArbArgs) : Instruction where
  programId := cfg.receiverProgram
  accounts := []
  data := (PortFlashReceiverInstruction.carryPlan plan.minProfit plan.hopAccountCounts
    plan.hopData).serialize

/-- `decode_helios_flash_arb_args` with the reason it fails for. -/
def decodeHeliosPlan (heliosIx : Instruction) : Except FlashError ExecuteFlashArbArgs :=
  if heliosIx.data.length < 8 then .error .payloadTooShort
  else
    match ExecuteFlashArbArgs.tryFromSlice (heliosIx.data.drop 8) with
    | none => .error .argsUndecodable
    | some args => if args.borrowAmount = 0 then .error .zeroBorrow else .ok args

theorem decodeHeliosPlan_ok_iff (heliosIx : Instruction) (args : ExecuteFlashArbArgs) :
    decodeHeliosPlan heliosIx = .ok args ↔ decodeHeliosFlashArbArgs heliosIx = some args := by
  rw [decodeHeliosPlan, decodeHeliosFlashArbArgs]
  split
  · simp
  · cases ExecuteFlashArbArgs.tryFromSlice (heliosIx.data.drop 8) with
    | none => simp
    | some read =>
        by_cases zero : read.borrowAmount = 0
        · simp [zero, Option.filter]
        · simp [zero, Option.filter]

/-! The wrappers. -/

section Wrappers

variable (env : FlashEnv) (builder : TxBuilder) (borrowMint : Pubkey) (borrowAmount : Nat)
  (userTokenAccount : Pubkey)

/-- `find_program_address`, which panics where no address is off the curve. -/
def programAddress (seeds : List (List UInt8)) (program : Pubkey) : Except FlashError Pubkey :=
  match builder.findProgramAddress seeds program with
  | some key => .ok key
  | none => .error .abort

def marginfiVaultAuthority (cfg : MarginfiConfig) : Except FlashError Pubkey :=
  programAddress builder [TxBuilder.seedText "liquidity_vault_auth", cfg.bank.toBytes]
    marginfiProgramId

def buildMarginfiWrappedInstructions (heliosIx : Instruction) (precedingIxCount : Nat) :
    Except FlashError (List Instruction) := do
  let cfg ← resolveMarginfiConfig env borrowMint
  let vaultAuthority ← marginfiVaultAuthority builder cfg
  let endIndex := wrap 64 (precedingIxCount + 3)
  let banks ← marginfiProjectedActiveBanks env cfg.bank cfg.oracle
  return [
    marginfiBeginIx cfg builder.payer endIndex,
    marginfiBorrowIx cfg builder.payer userTokenAccount vaultAuthority borrowAmount,
    heliosIx,
    marginfiEndIx cfg builder.payer (composeMarginfiHealthAccounts banks)]

def buildPortWrappedInstructions (heliosIx : Instruction) :
    Except FlashError (List Instruction) := do
  let cfg ← resolvePortConfig env borrowMint
  let marketAuthority ← programAddress builder [cfg.lendingMarket.toBytes] portProgramId
  let plan ← decodeHeliosPlan heliosIx
  match heliosIx.accounts[2]? with
  | none => .error .heliosConfigMissing
  | some heliosConfig =>
      let callbackAccounts := [
        .newReadonly builder.payer true,
        .newReadonly heliosIx.programId false,
        .newReadonly heliosConfig.pubkey false,
        .newReadonly instructionsSysvarId false] ++ heliosIx.accounts.drop 4
      return [
        portFlashIx cfg userTokenAccount marketAuthority borrowAmount callbackAccounts,
        portCarrierIx cfg plan]

def buildSolendWrappedInstructions (heliosIx : Instruction) (precedingIxCount : Nat) :
    Except FlashError (List Instruction) := do
  let cfg ← resolveSolendConfig env borrowMint
  let marketAuthority ← programAddress builder [cfg.lendingMarket.toBytes] solendProgramId
  return [
    solendBorrowIx cfg userTokenAccount marketAuthority borrowAmount,
    heliosIx,
    solendRepayIx cfg builder.payer userTokenAccount borrowAmount (UInt8.ofNat precedingIxCount)]

def buildKaminoWrappedInstructions (heliosIx : Instruction) (precedingIxCount : Nat) :
    Except FlashError (List Instruction) := do
  let cfg ← resolveKaminoConfig env borrowMint
  let marketAuthority ← programAddress builder
    [TxBuilder.seedText "lma", cfg.lendingMarket.toBytes] kaminoProgramId
  let accounts := kaminoAccounts cfg builder.payer borrowMint userTokenAccount marketAuthority
  return [
    kaminoBorrowIx kaminoBorrowDiscriminator accounts borrowAmount,
    heliosIx,
    kaminoRepayIx accounts borrowAmount (UInt8.ofNat precedingIxCount)]

def buildWrappedInstructions (provider : FlashProvider) (heliosIx : Instruction)
    (precedingIxCount : Nat) : Except FlashError (List Instruction) :=
  match provider with
  | .marginFi => buildMarginfiWrappedInstructions env builder borrowMint borrowAmount
      userTokenAccount heliosIx precedingIxCount
  | .solend => buildSolendWrappedInstructions env builder borrowMint borrowAmount
      userTokenAccount heliosIx precedingIxCount
  | .kamino => buildKaminoWrappedInstructions env builder borrowMint borrowAmount
      userTokenAccount heliosIx precedingIxCount
  | .portFinance => buildPortWrappedInstructions env builder borrowMint borrowAmount
      userTokenAccount heliosIx

def buildWrappedInstructionsDirect (provider : FlashProvider) (swapIxs : List Instruction)
    (precedingIxCount : Nat) : Except FlashError (List Instruction) :=
  match provider with
  | .marginFi => do
      let cfg ← resolveMarginfiConfig env borrowMint
      let vaultAuthority ← marginfiVaultAuthority builder cfg
      let endIndex := wrap 64 (precedingIxCount + 2 + swapIxs.length)
      return [
        marginfiBeginIx cfg builder.payer endIndex,
        marginfiBorrowIx cfg builder.payer userTokenAccount vaultAuthority borrowAmount] ++
        swapIxs ++ [marginfiEndIx cfg builder.payer [instructionsSysvarId]]
  | .kamino => do
      let cfg ← resolveKaminoConfig env borrowMint
      let accounts := kaminoDirectAccounts cfg userTokenAccount
      return [kaminoBorrowIx kaminoDirectBorrowDiscriminator accounts borrowAmount] ++
        swapIxs ++ [kaminoRepayIx accounts borrowAmount (UInt8.ofNat precedingIxCount)]
  | provider => .error (.directNotSupported provider)

end Wrappers

end FlashLoans

end Helios
