import Helios.FlashSequence
import Helios.RouteExecution

/-! The receiver program of a Port loan, and the plan's way through it: from the
executor's instruction into the carrier, and from there into the call of the
on-chain program. What Port itself hands its receiver is a parameter. -/

namespace Helios

open Borsh Machine

namespace Borsh

def writeBytes : List UInt8 → List UInt8 := writeVec (fun byte => [byte])

def readBytes : Reader (List UInt8) := readVec readByte

theorem readBytes_roundTrips (bytes : List UInt8) (short : bytes.length < 2 ^ 32) :
    RoundTrips writeBytes readBytes bytes :=
  readVec_roundTrips _ _ bytes short (fun byte _ => readByte_roundTrips byte)

end Borsh

/-- The three fields every form of the plan shares, in the order they are written. -/
structure RoutePlan where
  minProfit : Nat
  hopAccountCounts : List UInt8
  hopData : List (List UInt8)
  deriving DecidableEq

namespace RoutePlan

def serialize (plan : RoutePlan) : List UInt8 :=
  leBytes 8 plan.minProfit ++ (writeBytes plan.hopAccountCounts ++
    writeVec writeBytes plan.hopData)

def read : Reader RoutePlan := fun bytes => do
  let (minProfit, bytes) ← readNat 8 bytes
  let (hopAccountCounts, bytes) ← readBytes bytes
  let (hopData, bytes) ← readVec readBytes bytes
  return (⟨minProfit, hopAccountCounts, hopData⟩, bytes)

/-- Every vector fits its 32-bit length, the amount its 64 bits. -/
structure Fits (plan : RoutePlan) : Prop where
  minProfit : plan.minProfit < 2 ^ 64
  counts : plan.hopAccountCounts.length < 2 ^ 32
  hops : plan.hopData.length < 2 ^ 32
  data : ∀ data ∈ plan.hopData, data.length < 2 ^ 32

theorem read_roundTrips (plan : RoutePlan) (fits : plan.Fits) :
    RoundTrips serialize read plan := by
  intro rest
  have profit := readNat_roundTrips 8 plan.minProfit
    (lt_of_lt_of_eq fits.minProfit (by norm_num))
  have counts := readBytes_roundTrips plan.hopAccountCounts fits.counts
  have hops := readVec_roundTrips writeBytes readBytes plan.hopData fits.hops
    (fun data member => readBytes_roundTrips data (fits.data data member)) rest
  rw [serialize, read, List.append_assoc, profit]
  simp only [Option.bind_eq_bind, Option.bind_some, List.append_assoc, counts _, hops]
  rfl

end RoutePlan

namespace FlashLoans.PortFlashReceiverInstruction

/-- `try_from_slice`: nothing may be left over. -/
def tryFromSlice : List UInt8 → Option PortFlashReceiverInstruction
  | 0 :: bytes =>
      match readNat 8 bytes with
      | some (repayAmount, []) => some (.receiveFlashLoan repayAmount)
      | _ => none
  | 1 :: bytes =>
      match RoutePlan.read bytes with
      | some (plan, []) => some (.carryPlan plan.minProfit plan.hopAccountCounts plan.hopData)
      | _ => none
  | _ => none

theorem tryFromSlice_carryPlan (plan : RoutePlan) (fits : plan.Fits) :
    tryFromSlice (carryPlan plan.minProfit plan.hopAccountCounts plan.hopData).serialize =
      some (.carryPlan plan.minProfit plan.hopAccountCounts plan.hopData) := by
  have round := RoutePlan.read_roundTrips plan fits []
  rw [List.append_nil] at round
  have written : (carryPlan plan.minProfit plan.hopAccountCounts plan.hopData).serialize =
      1 :: plan.serialize := rfl
  rw [written, tryFromSlice, round]

theorem tryFromSlice_receiveFlashLoan (repayAmount : Nat) (bound : repayAmount < 2 ^ 64) :
    tryFromSlice (receiveFlashLoan repayAmount).serialize =
      some (.receiveFlashLoan repayAmount) := by
  have round := readNat_roundTrips 8 repayAmount (lt_of_lt_of_eq bound (by norm_num)) []
  rw [List.append_nil] at round
  rw [serialize, tryFromSlice, round]

end FlashLoans.PortFlashReceiverInstruction

namespace HeliosProgram

/-- `global:execute_route_only`. -/
def executeRouteOnlyDiscriminator : List UInt8 := [216, 255, 29, 236, 113, 80, 2, 242]

/-- The calls that run hops, with the plan of each. -/
inductive HeliosCall where
  | executeFlashArb (borrowAmount : Nat) (plan : RoutePlan)
  | executeRouteOnly (plan : RoutePlan)
  deriving DecidableEq

/-- The dispatch on the first eight bytes. Bytes behind the arguments are ignored,
and the calls that run no hops are left out. -/
def HeliosCall.decode (data : List UInt8) : Option HeliosCall :=
  if data.take 8 = executeFlashArbDiscriminator then do
    let (borrowAmount, bytes) ← readNat 8 (data.drop 8)
    let (plan, _) ← RoutePlan.read bytes
    return .executeFlashArb borrowAmount plan
  else if data.take 8 = executeRouteOnlyDiscriminator then do
    let (plan, _) ← RoutePlan.read (data.drop 8)
    return .executeRouteOnly plan
  else none

theorem decode_executeRouteOnly (plan : RoutePlan) (fits : plan.Fits) :
    HeliosCall.decode (executeRouteOnlyDiscriminator ++ plan.serialize) =
      some (.executeRouteOnly plan) := by
  have tag : (executeRouteOnlyDiscriminator ++ plan.serialize).take 8 =
      executeRouteOnlyDiscriminator := List.take_left' rfl
  have body : (executeRouteOnlyDiscriminator ++ plan.serialize).drop 8 = plan.serialize :=
    List.drop_left' rfl
  have round := RoutePlan.read_roundTrips plan fits []
  rw [List.append_nil] at round
  rw [HeliosCall.decode, tag, if_neg (by decide), if_pos rfl, body, round]
  rfl

theorem decode_executeFlashArb (borrowAmount : Nat) (plan : RoutePlan)
    (bound : borrowAmount < 2 ^ 64) (fits : plan.Fits) :
    HeliosCall.decode (executeFlashArbDiscriminator ++
      (leBytes 8 borrowAmount ++ plan.serialize)) =
        some (.executeFlashArb borrowAmount plan) := by
  have tag : (executeFlashArbDiscriminator ++ (leBytes 8 borrowAmount ++ plan.serialize)).take 8 =
      executeFlashArbDiscriminator := List.take_left' rfl
  have body : (executeFlashArbDiscriminator ++ (leBytes 8 borrowAmount ++ plan.serialize)).drop 8 =
      leBytes 8 borrowAmount ++ plan.serialize := List.drop_left' rfl
  have borrow := readNat_roundTrips 8 borrowAmount (lt_of_lt_of_eq bound (by norm_num))
    plan.serialize
  have round := RoutePlan.read_roundTrips plan fits []
  rw [List.append_nil] at round
  rw [HeliosCall.decode, tag, if_pos rfl, body, borrow]
  simp only [Option.bind_eq_bind, Option.bind_some, round]
  rfl

end HeliosProgram

namespace PortReceiver

open FlashLoans HeliosProgram

inductive ReceiverError where
  | invalidInstructionData
  | invalidAccountData
  | invalidArgument
  | missingRequiredSignature
  | notEnoughAccountKeys
  | called (error : HeliosProgram.ProgramError)
  deriving DecidableEq

/-- The instructions sysvar: the transaction's instructions, and the one running. -/
structure InstructionsSysvar where
  instructions : List Instruction
  currentIndex : Nat

/-- The accounts of the callback by name, and the plan its carrier holds. -/
structure Callback where
  userTokenAccount : AccountInfo
  reserveLiquiditySupply : AccountInfo
  tokenProgram : AccountInfo
  payer : AccountInfo
  heliosProgram : AccountInfo
  heliosConfig : AccountInfo
  remaining : List AccountInfo
  plan : RoutePlan

/-- The accounts taken in turn, the checks on them, and the instruction behind the
one running read as the carrier. -/
def readCallback (programId : Pubkey) (sysvar : InstructionsSysvar)
    (accounts : List AccountInfo) : Except ReceiverError Callback :=
  match accounts with
  | userTokenAccount :: reserveLiquiditySupply :: tokenProgram :: payer :: heliosProgram ::
      heliosConfig :: instructionsSysvar :: remaining =>
      if instructionsSysvar.key ≠ instructionsSysvarId then .error .invalidAccountData
      else if payer.isSigner = false then .error .missingRequiredSignature
      else
        match sysvar.instructions[sysvar.currentIndex + 1]? with
        | none => .error .invalidArgument
        | some carrierIx =>
            if carrierIx.programId ≠ programId then .error .invalidInstructionData
            else
              match PortFlashReceiverInstruction.tryFromSlice carrierIx.data with
              | some (.carryPlan minProfit hopAccountCounts hopData) => .ok {
                  userTokenAccount, reserveLiquiditySupply, tokenProgram, payer, heliosProgram,
                  heliosConfig, remaining
                  plan := ⟨minProfit, hopAccountCounts, hopData⟩ }
              | _ => .error .invalidInstructionData
  | _ => .error .notEnoughAccountKeys

def buildHeliosRouteOnlyIx (callback : Callback) : Instruction where
  programId := callback.heliosProgram.key
  accounts := [
    .new callback.payer.key true,
    .new callback.userTokenAccount.key false,
    .newReadonly callback.heliosConfig.key false,
    .newReadonly callback.tokenProgram.key false] ++ callback.remaining.map AccountInfo.toMeta
  data := executeRouteOnlyDiscriminator ++ callback.plan.serialize

def heliosInfos (callback : Callback) : List AccountInfo :=
  [callback.heliosProgram, callback.payer, callback.userTokenAccount, callback.heliosConfig,
    callback.tokenProgram] ++ callback.remaining

def buildSplTokenTransferIx (tokenProgram source destination authority : Pubkey) (amount : Nat) :
    Instruction where
  programId := tokenProgram
  accounts := [.new source false, .new destination false, .newReadonly authority true]
  data := 3 :: leBytes 8 amount

section Program

variable {State : Type} (invoke : State → Instruction → List AccountInfo →
    Except HeliosProgram.ProgramError State) (accountData : State → Pubkey → List UInt8)

def readTokenAmount (state : State) (account : AccountInfo) : Except ReceiverError Nat :=
  if (accountData state account.key).length < 72 then .error .invalidAccountData
  else .ok (ofLeBytes (((accountData state account.key).drop 64).take 8))

/-- `invoke` with the `?` behind it. -/
def call (state : State) (ix : Instruction) (infos : List AccountInfo) :
    Except ReceiverError State :=
  (invoke state ix infos).mapError ReceiverError.called

/-- What is left to do once the hops have run: the loan is paid back. -/
def afterHelios (callback : Callback) (repayAmount : Nat) (state : State) :
    Except ReceiverError State := do
  let _ ← readTokenAmount accountData state callback.userTokenAccount
  let repayIx := buildSplTokenTransferIx callback.tokenProgram.key callback.userTokenAccount.key
    callback.reserveLiquiditySupply.key callback.payer.key repayAmount
  let repaid ← call invoke state repayIx [callback.userTokenAccount,
    callback.reserveLiquiditySupply, callback.payer, callback.tokenProgram]
  let _ ← readTokenAmount accountData repaid callback.userTokenAccount
  return repaid

def processReceiveFlashLoan (programId : Pubkey) (sysvar : InstructionsSysvar)
    (accounts : List AccountInfo) (repayAmount : Nat) (state : State) :
    Except ReceiverError State := do
  let callback ← readCallback programId sysvar accounts
  let _ ← readTokenAmount accountData state callback.userTokenAccount
  let after ← call invoke state (buildHeliosRouteOnlyIx callback) (heliosInfos callback)
  afterHelios invoke accountData callback repayAmount after

def processInstruction (programId : Pubkey) (sysvar : InstructionsSysvar)
    (accounts : List AccountInfo) (instructionData : List UInt8) (state : State) :
    Except ReceiverError State :=
  match PortFlashReceiverInstruction.tryFromSlice instructionData with
  | none => .error .invalidInstructionData
  | some (.receiveFlashLoan repayAmount) =>
      processReceiveFlashLoan invoke accountData programId sysvar accounts repayAmount state
  | some (.carryPlan _ _ _) => .ok state

/-- The hops run before anything else does, and the repayment behind them. -/
theorem processReceiveFlashLoan_of_callback (programId : Pubkey) (sysvar : InstructionsSysvar)
    (accounts : List AccountInfo) (repayAmount : Nat) (callback : Callback) (state : State)
    (read : readCallback programId sysvar accounts = .ok callback)
    (readable : 72 ≤ (accountData state callback.userTokenAccount.key).length) :
    processReceiveFlashLoan invoke accountData programId sysvar accounts repayAmount state =
      (call invoke state (buildHeliosRouteOnlyIx callback) (heliosInfos callback) >>=
        afterHelios invoke accountData callback repayAmount) := by
  rw [processReceiveFlashLoan, read, Fallible.ok_bind, readTokenAmount,
    if_neg (not_lt.mpr readable)]
  rfl

end Program

/-! The plan on its way. -/

/-- The flags a transaction gives its accounts: one answer a key, whichever
instruction names it. -/
structure Message where
  signs : Pubkey → Bool
  writes : Pubkey → Bool
  executable : Pubkey → Bool

namespace Message

variable (message : Message)

def info (key : Pubkey) : AccountInfo :=
  ⟨key, message.signs key, message.writes key, message.executable key⟩

/-- The accounts an instruction's program is handed. -/
def present (metas : List AccountMeta) : List AccountInfo :=
  metas.map (fun wanted => message.info wanted.pubkey)

def Allows (wanted : AccountMeta) : Prop :=
  (wanted.isSigner = true → message.signs wanted.pubkey = true) ∧
    (wanted.isWritable = true → message.writes wanted.pubkey = true)

/-- No instruction asks for more than the transaction grants. -/
def Covers (ixs : List Instruction) : Prop :=
  ∀ ix ∈ ixs, ∀ wanted ∈ ix.accounts, message.Allows wanted

end Message

/-- What a Port loan calls its receiver with. -/
structure ReceiverCall where
  programId : Pubkey
  accounts : List AccountInfo
  data : List UInt8
  deriving DecidableEq

/-- The call a Port loan makes from its accounts and its data, if it gets that far. -/
abbrev PortProgram := List AccountInfo → List UInt8 → Option ReceiverCall

/-- The call the loan at the head of a wrapped list makes. -/
def loanCall (port : PortProgram) (message : Message) (ixs : List Instruction) :
    Option ReceiverCall :=
  ixs.head?.bind (fun flashIx => port (message.present flashIx.accounts) flashIx.data)

/-- A Port loan calls the program it is given as its ninth account: with the account
it paid into, the reserve's supply, the token program and all that follows the ninth
account, and with the amount to repay. -/
def CallsReceiver (port : PortProgram) : Prop :=
  ∀ supply user reserve feeReceiver host market authority token receiver others amount received,
    port (supply :: user :: reserve :: feeReceiver :: host :: market :: authority :: token ::
      receiver :: others) (13 :: leBytes 8 amount) = some received →
    ∃ user' supply' token' repayAmount, user'.key = user.key ∧ supply'.key = supply.key ∧
      token'.key = token.key ∧ repayAmount < 2 ^ 64 ∧
      received = ⟨receiver.key, user' :: supply' :: token' :: others,
        (PortFlashReceiverInstruction.receiveFlashLoan repayAmount).serialize⟩

/-- An account that is handed on with no flag lost. -/
def Grants (given wanted : AccountMeta) : Prop :=
  given.pubkey = wanted.pubkey ∧ (wanted.isSigner = true → given.isSigner = true) ∧
    (wanted.isWritable = true → given.isWritable = true)

/-- What two calls of the on-chain program have in common: the plan, the payer, the
user's token account, the config and the token program, and the hops' accounts in
their order, which the second call takes with the transaction's flags. -/
structure SamePlan (message : Message) (first second : Instruction) (plan : RoutePlan) :
    Prop where
  program : second.programId = first.programId
  flashArb : ∃ borrowAmount, HeliosCall.decode first.data = some (.executeFlashArb borrowAmount plan)
  routeOnly : HeliosCall.decode second.data = some (.executeRouteOnly plan)
  named : second.accounts.take 4 = first.accounts.take 4
  remaining : second.accounts.drop 4 =
    (message.present (first.accounts.drop 4)).map AccountInfo.toMeta
  flags : List.Forall₂ Grants (second.accounts.drop 4) (first.accounts.drop 4)

theorem grants_present (message : Message) (metas : List AccountMeta)
    (allowed : ∀ wanted ∈ metas, message.Allows wanted) :
    List.Forall₂ Grants ((message.present metas).map AccountInfo.toMeta) metas := by
  induction metas with
  | nil => exact List.Forall₂.nil
  | cons wanted rest ih =>
      have here := allowed wanted List.mem_cons_self
      exact List.Forall₂.cons ⟨rfl, here⟩
        (ih (fun later member => allowed later (List.mem_cons_of_mem _ member)))

section Carriage

variable {F : Type} [FloatArith F] (powf : F → F → F) (env : FlashEnv) (builder : TxBuilder)

open FlashSequence RouteExecution TxBuilder

def planOf (args : ExecuteFlashArbArgs) : RoutePlan :=
  ⟨args.minProfit, args.hopAccountCounts, args.hopData⟩

theorem planOf_fits (args : ExecuteFlashArbArgs) (fits : args.Fits) : (planOf args).Fits :=
  ⟨fits.minProfit, fits.counts, fits.hops, fits.data⟩

/-- The instruction a route is built into, its four first accounts and its plan. -/
theorem heliosIx_of_built (route : RouteParams F) (userTokenAccount : Pubkey)
    (cache : PoolStateCache) (tokenPrograms : HashMap Pubkey Pubkey) (heliosIx : Instruction)
    (built : builder.buildHeliosInstruction powf route userTokenAccount cache tokenPrograms =
      .ok heliosIx) :
    ∃ hops config remaining,
      builder.buildHops powf cache tokenPrograms 0 route.borrowAmount route.hops = .ok hops ∧
      heliosIx = ⟨builder.heliosProgram, [.new builder.payer true, .new userTokenAccount false,
          .newReadonly config false, .newReadonly tokenProgramId false] ++ remaining,
        executeFlashArbDiscriminator ++ (flashArbArgs route hops).serialize⟩ := by
  simp only [buildHeliosInstruction, Fallible.bind_eq_ok_iff] at built
  rcases built with ⟨hops, hopsBuilt, config, _, same⟩
  cases same
  exact ⟨hops, config, hops.flatMap BuiltHop.accounts, hopsBuilt, rfl⟩

omit [FloatArith F] in
/-- The plan read back from a built instruction is the one written. -/
theorem decoded_plan (route : RouteParams F) (hops : List BuiltHop) (heliosIx : Instruction)
    (args : ExecuteFlashArbArgs)
    (data : heliosIx.data = executeFlashArbDiscriminator ++ (flashArbArgs route hops).serialize)
    (fits : (flashArbArgs route hops).Fits) (decoded : decodeHeliosPlan heliosIx = .ok args) :
    args = flashArbArgs route hops := by
  have read := decode_of_data route hops heliosIx data fits
  rw [(decodeHeliosPlan_ok_iff heliosIx args).mp decoded] at read
  by_cases borrows : route.borrowAmount ≠ 0
  · rw [if_pos borrows] at read
    exact Option.some.inj read
  · rw [if_neg borrows] at read
    cases read

/-- The receiver finds the plan behind the loan that called it. -/
theorem readCallback_of_carrier (programId : Pubkey) (sysvar : InstructionsSysvar)
    (user supply token payer program config sysvarInfo : AccountInfo)
    (remaining : List AccountInfo) (plan : RoutePlan) (carrierIx : Instruction)
    (named : sysvarInfo.key = instructionsSysvarId) (signed : payer.isSigner = true)
    (next : sysvar.instructions[sysvar.currentIndex + 1]? = some carrierIx)
    (own : carrierIx.programId = programId) (fits : plan.Fits)
    (data : carrierIx.data = (PortFlashReceiverInstruction.carryPlan plan.minProfit
      plan.hopAccountCounts plan.hopData).serialize) :
    readCallback programId sysvar (user :: supply :: token :: payer :: program :: config ::
      sysvarInfo :: remaining) =
        .ok ⟨user, supply, token, payer, program, config, remaining, plan⟩ := by
  have unsigned : ¬ payer.isSigner = false := by
    rw [signed]
    exact Bool.true_eq_false_eq_False
  rw [readCallback, if_neg (not_not_intro named), if_neg unsigned, next]
  dsimp only
  rw [if_neg (not_not_intro own), data,
    PortFlashReceiverInstruction.tryFromSlice_carryPlan plan fits]

/-- The receiver's call of the on-chain program, compared with the executor's
instruction. -/
theorem samePlan_of_callback (message : Message) (heliosIx : Instruction)
    (userTokenAccount payer config : Pubkey) (remaining : List AccountMeta) (borrowAmount : Nat)
    (plan : RoutePlan) (small : borrowAmount < 2 ^ 64) (fits : plan.Fits) (callback : Callback)
    (accounts : heliosIx.accounts = [.new payer true, .new userTokenAccount false,
      .newReadonly config false, .newReadonly tokenProgramId false] ++ remaining)
    (data : heliosIx.data = executeFlashArbDiscriminator ++
      (leBytes 8 borrowAmount ++ plan.serialize))
    (user : callback.userTokenAccount.key = userTokenAccount)
    (token : callback.tokenProgram.key = tokenProgramId) (payerIs : callback.payer.key = payer)
    (configIs : callback.heliosConfig.key = config)
    (program : callback.heliosProgram.key = heliosIx.programId)
    (carried : callback.plan = plan)
    (handed : callback.remaining = message.present (heliosIx.accounts.drop 4))
    (allowed : ∀ wanted ∈ heliosIx.accounts.drop 4, message.Allows wanted) :
    SamePlan message heliosIx (buildHeliosRouteOnlyIx callback) plan := by
  have rest : (buildHeliosRouteOnlyIx callback).accounts.drop 4 =
      (message.present (heliosIx.accounts.drop 4)).map AccountInfo.toMeta := by
    rw [← handed]
    rfl
  refine ⟨program, ⟨borrowAmount, ?_⟩, ?_, ?_, rest, ?_⟩
  · rw [data]
    exact decode_executeFlashArb borrowAmount plan small fits
  · rw [← carried] at fits ⊢
    exact decode_executeRouteOnly callback.plan fits
  · rw [accounts, buildHeliosRouteOnlyIx, user, token, payerIs, configIs]
    rfl
  · rw [rest]
    exact grants_present message _ allowed

/-- The Port loan carries the plan to the on-chain program unchanged: the receiver's
first call is one of `execute_route_only` with the plan, the payer, the user's token
account and the hops' accounts of the executor's instruction. -/
theorem port_carries_plan (route : RouteParams F) (userTokenAccount : Pubkey)
    (cache : PoolStateCache) (tokenPrograms : HashMap Pubkey Pubkey) (heliosIx : Instruction)
    (small : route.borrowAmount < 2 ^ 64) (short : route.hops.length < 2 ^ 32)
    (built : builder.buildHeliosInstruction powf route userTokenAccount cache tokenPrograms =
      .ok heliosIx) (borrowMint : Pubkey) (borrowAmount precedingIxCount : Nat)
    (ixs : List Instruction)
    (wrapped : buildWrappedInstructions env builder borrowMint borrowAmount userTokenAccount
      .portFinance heliosIx precedingIxCount = .ok ixs) (before after : List Instruction)
    (message : Message) (covers : message.Covers (before ++ ixs ++ after)) (port : PortProgram)
    (calls : CallsReceiver port) (received : ReceiverCall)
    (called : loanCall port message ixs = some received) :
    ∃ plan callback repayAmount,
      SamePlan message heliosIx (buildHeliosRouteOnlyIx callback) plan ∧
      ∀ (State : Type) (invoke : State → Instruction → List AccountInfo →
          Except HeliosProgram.ProgramError State) accountData state,
        72 ≤ (accountData state userTokenAccount).length →
        processInstruction invoke accountData received.programId
            ⟨before ++ ixs ++ after, before.length⟩ received.accounts received.data state =
          (call invoke state (buildHeliosRouteOnlyIx callback) (heliosInfos callback) >>=
            afterHelios invoke accountData callback repayAmount) := by
  rcases heliosIx_of_built powf builder route userTokenAccount cache tokenPrograms heliosIx built
    with ⟨hops, config, remaining, hopsBuilt, shape⟩
  have fits := flashArbArgs_fits powf builder cache tokenPrograms route hops small short hopsBuilt
  rcases shape_helios env builder borrowMint borrowAmount userTokenAccount .portFinance heliosIx
    precedingIxCount ixs wrapped with
    ⟨sameIx, cfg, authority, args, heliosConfig, wraps, decoded, third, same⟩
  cases wraps
  have argsAre := decoded_plan route hops heliosIx args (by rw [shape]) fits decoded
  have thirdIs : heliosConfig = .newReadonly config false := by
    rw [shape] at third
    exact (Option.some.inj third).symm
  rw [same] at called
  rcases calls _ _ _ _ _ _ _ _ _ _ _ _ called with
    ⟨user, supply, token, repayAmount, userKey, supplyKey, tokenKey, bound, receivedIs⟩
  have planFits := planOf_fits args (argsAre ▸ fits)
  have flashIn : portFlashIx cfg userTokenAccount authority borrowAmount
      (portCallback builder.payer heliosIx heliosConfig) ∈ before ++ ixs ++ after := by
    rw [same]
    exact List.mem_append_left _ (List.mem_append_right _ List.mem_cons_self)
  have signed : message.signs builder.payer = true := by
    refine (covers _ flashIn (.newReadonly builder.payer true) ?_).1 rfl
    exact List.mem_append_right _ (List.mem_append_left _ List.mem_cons_self)
  have next : (before ++ ixs ++ after)[before.length + 1]? = some (portCarrierIx cfg args) :=
    getElem?_inside before ixs after 1 _ (by rw [same]; rfl)
  have callback := readCallback_of_carrier cfg.receiverProgram
    ⟨before ++ ixs ++ after, before.length⟩ user supply token (message.info builder.payer)
    (message.info heliosIx.programId) (message.info heliosConfig.pubkey)
    (message.info instructionsSysvarId) (message.present (heliosIx.accounts.drop 4)) (planOf args)
    (portCarrierIx cfg args) rfl signed next rfl planFits rfl
  have allowed : ∀ wanted ∈ heliosIx.accounts.drop 4, message.Allows wanted := by
    intro wanted member
    refine covers _ flashIn wanted ?_
    exact List.mem_append_right _ (List.mem_append_right _ member)
  have samePlan := samePlan_of_callback message heliosIx userTokenAccount builder.payer config
    remaining route.borrowAmount (planOf args) small planFits
    ⟨user, supply, token, message.info builder.payer, message.info heliosIx.programId,
      message.info heliosConfig.pubkey, message.present (heliosIx.accounts.drop 4), planOf args⟩
    (by rw [shape]) (by rw [shape, argsAre]; rfl) userKey tokenKey rfl
    (congrArg AccountMeta.pubkey thirdIs) rfl rfl rfl allowed
  refine ⟨planOf args, _, repayAmount, samePlan, ?_⟩
  intro State invoke accountData state readable
  rw [receivedIs, processInstruction,
    PortFlashReceiverInstruction.tryFromSlice_receiveFlashLoan repayAmount bound]
  exact processReceiveFlashLoan_of_callback invoke accountData _ _ _ repayAmount _ state callback
    (userKey.symm ▸ readable)

end Carriage

/-! A loan whose lender takes no fee. -/

section Sample

open FlashSequence Executability

def samplePort : PortProgram
  | supply :: user :: _ :: _ :: _ :: _ :: _ :: token :: receiver :: others, _ :: amount =>
      if ofLeBytes amount < 2 ^ 64 then
        some ⟨receiver.key, user :: supply :: token :: others,
          (PortFlashReceiverInstruction.receiveFlashLoan (ofLeBytes amount)).serialize⟩
      else none
  | _, _ => none

theorem samplePort_calls : CallsReceiver samplePort := by
  intro supply user reserve feeReceiver host market authority token receiver others amount received
    called
  rw [samplePort] at called
  split at called
  · next bound =>
      cases called
      exact ⟨user, supply, token, _, rfl, rfl, rfl, bound, rfl⟩
  · cases called

def sampleMessage : Message := ⟨fun _ => true, fun _ => true, fun _ => true⟩

def sampleReceived : ReceiverCall :=
  (loanCall samplePort sampleMessage (sampleWrapped .portFinance)).getD ⟨default, [], []⟩

theorem sample_plan_carried :
    ∃ plan callback repayAmount,
      SamePlan sampleMessage sampleHeliosIx (buildHeliosRouteOnlyIx callback) plan ∧
      ∀ (State : Type) (invoke : State → Instruction → List AccountInfo →
          Except HeliosProgram.ProgramError State) accountData state,
        72 ≤ (accountData state (.ofNat 9)).length →
        processInstruction invoke accountData sampleReceived.programId
            ⟨[] ++ sampleWrapped .portFinance ++ [], 0⟩ sampleReceived.accounts sampleReceived.data
            state =
          (call invoke state (buildHeliosRouteOnlyIx callback) (heliosInfos callback) >>=
            afterHelios invoke accountData callback repayAmount) :=
  port_carries_plan firstArgument sampleEnv constantBuilder sampleRoute (.ofNat 9) sampleCache
    HashMap.empty sampleHeliosIx (by decide) (by decide) sampleHeliosIx_built wsol 100 2
    (sampleWrapped .portFinance) sampleWrapped_port [] [] sampleMessage
    (fun _ _ _ _ => ⟨fun _ => rfl, fun _ => rfl⟩) samplePort samplePort_calls sampleReceived
    (by decide +kernel)

end Sample

end PortReceiver

end Helios
