import Helios.TxBuilder

/-! The on-chain program: it runs the hops it is handed and compares the user's
balance before and after. Cross-program calls and token accounts belong to the
runtime, a parameter. Account constraints are taken as checked. -/

namespace Helios.HeliosProgram

open Machine

inductive HeliosError where
  | unauthorizedDex
  | insufficientProfit
  | invalidRoutePlan
  | invalidDexProgram
  | whitelistTooLarge
  | arithmeticOverflow
  deriving DecidableEq

/-- An error of this program, or one the runtime raised. -/
inductive ProgramError where
  | helios (error : HeliosError)
  | runtime (code : Nat)
  deriving DecidableEq

structure HeliosConfig where
  authority : Pubkey
  dexWhitelist : List Pubkey

def maxDexWhitelist : Nat := 10

def initialWhitelist : List Pubkey :=
  [DexPrograms.raydiumAmmV4, DexPrograms.raydiumClmm, DexPrograms.orcaWhirlpool,
    DexPrograms.meteoraDlmm, DexPrograms.pumpswap]

/-- `initialize`, whose length check never fails. -/
def initializeConfig (authority : Pubkey) : HeliosConfig := ⟨authority, initialWhitelist⟩

structure AccountInfo where
  key : Pubkey
  isSigner : Bool
  isWritable : Bool
  executable : Bool
  deriving DecidableEq

namespace AccountInfo

def toMeta (account : AccountInfo) : AccountMeta :=
  ⟨account.key, account.isSigner, account.isWritable⟩

end AccountInfo

structure Runtime (State : Type) where
  invoke : State → Instruction → List AccountInfo → Except ProgramError State
  /-- The amount of a token account, if it still is one. -/
  tokenAmount : State → Pubkey → Option Nat

section Execution

variable {State : Type} (runtime : Runtime State) (config : HeliosConfig)

/-- The call made for one slice of the accounts: its first account is the program. -/
def hopInstruction (program : AccountInfo) (others : List AccountInfo) (data : List UInt8) :
    Instruction :=
  ⟨program.key, others.map AccountInfo.toMeta, data⟩

def executeHop (accounts : List AccountInfo) (data : List UInt8) (state : State) :
    Except ProgramError State :=
  match accounts with
  | [] => .error (.helios .invalidRoutePlan)
  | program :: others =>
      if program.key ∉ config.dexWhitelist then .error (.helios .unauthorizedDex)
      else if program.executable = false then .error (.helios .invalidDexProgram)
      else runtime.invoke state (hopInstruction program others data) (program :: others)

/-- The loop, with the accounts not yet handed out. -/
def executeHopList : List AccountInfo → List (UInt8 × List UInt8) → State →
    Except ProgramError State
  | remaining, [], state =>
      if remaining = [] then .ok state else .error (.helios .invalidRoutePlan)
  | remaining, (count, data) :: rest, state =>
      if count = 0 then .error (.helios .invalidRoutePlan)
      else if remaining.length < count.toNat then .error (.helios .invalidRoutePlan)
      else do
        let state ← executeHop runtime config (remaining.take count.toNat) data state
        executeHopList (remaining.drop count.toNat) rest state

def executeHops (remainingAccounts : List AccountInfo) (hopAccountCounts : List UInt8)
    (hopData : List (List UInt8)) (state : State) : Except ProgramError State :=
  if hopAccountCounts.length ≠ hopData.length then .error (.helios .invalidRoutePlan)
  else executeHopList runtime config remainingAccounts (hopAccountCounts.zip hopData) state

/-- Reading a token account that is gone fails in the runtime. -/
def readAmount (state : State) (account : Pubkey) : Except ProgramError Nat :=
  match runtime.tokenAmount state account with
  | some amount => .ok amount
  | none => .error (.runtime 3012)

/-- The body of both instructions: the new state and the profit they log. -/
def executeWithCheck (userTokenAccount : Pubkey) (remainingAccounts : List AccountInfo)
    (requiredIncrease : Nat) (hopAccountCounts : List UInt8) (hopData : List (List UInt8))
    (state : State) : Except ProgramError (State × Nat) := do
  let balanceBefore ← readAmount runtime state userTokenAccount
  let after ← executeHops runtime config remainingAccounts hopAccountCounts hopData state
  let balanceAfter ← readAmount runtime after userTokenAccount
  if u64Max < balanceBefore + requiredIncrease then .error (.helios .arithmeticOverflow)
  else if balanceAfter < balanceBefore + requiredIncrease then
    .error (.helios .insufficientProfit)
  else .ok (after, balanceAfter - balanceBefore)

/-- The borrowed amount is not looked at. -/
def executeFlashArb (userTokenAccount : Pubkey) (remainingAccounts : List AccountInfo)
    (_borrowAmount minProfit : Nat) (hopAccountCounts : List UInt8) (hopData : List (List UInt8))
    (state : State) : Except ProgramError (State × Nat) :=
  executeWithCheck runtime config userTokenAccount remainingAccounts minProfit hopAccountCounts
    hopData state

def executeRouteOnly (userTokenAccount : Pubkey) (remainingAccounts : List AccountInfo)
    (requiredBalanceIncrease : Nat) (hopAccountCounts : List UInt8) (hopData : List (List UInt8))
    (state : State) : Except ProgramError (State × Nat) :=
  executeWithCheck runtime config userTokenAccount remainingAccounts requiredBalanceIncrease
    hopAccountCounts hopData state

theorem executeHop_of_allowed (program : AccountInfo) (others : List AccountInfo)
    (data : List UInt8) (state : State) (listed : program.key ∈ config.dexWhitelist)
    (deployed : program.executable = true) :
    executeHop runtime config (program :: others) data state =
      runtime.invoke state (hopInstruction program others data) (program :: others) := by
  have executable : ¬ program.executable = false := by
    rw [deployed]
    exact Bool.true_eq_false_eq_False
  rw [executeHop, if_neg (not_not_intro listed), if_neg executable]

/-- A hop that is handed its own slice. -/
theorem executeHopList_cons (count : UInt8) (data : List UInt8)
    (rest : List (UInt8 × List UInt8)) (slice remaining : List AccountInfo) (state : State)
    (same : slice.length = count.toNat) (some : slice ≠ []) :
    executeHopList runtime config (slice ++ remaining) ((count, data) :: rest) state =
      executeHop runtime config slice data state >>=
        executeHopList runtime config remaining rest := by
  have positive : ¬ count = 0 := by
    intro zero
    rw [zero] at same
    exact some (List.length_eq_zero_iff.mp same)
  have long : ¬ (slice ++ remaining).length < count.toNat := by
    rw [List.length_append]
    omega
  rw [executeHopList, if_neg positive, if_neg long, List.take_left' same, List.drop_left' same]

theorem executeWithCheck_of_hops (userTokenAccount : Pubkey)
    (remainingAccounts : List AccountInfo) (requiredIncrease : Nat)
    (hopAccountCounts : List UInt8) (hopData : List (List UInt8)) (state after : State)
    (before final : Nat) (held : runtime.tokenAmount state userTokenAccount = some before)
    (ran : executeHops runtime config remainingAccounts hopAccountCounts hopData state = .ok after)
    (left : runtime.tokenAmount after userTokenAccount = some final)
    (fits : before + requiredIncrease ≤ u64Max) :
    executeWithCheck runtime config userTokenAccount remainingAccounts requiredIncrease
      hopAccountCounts hopData state =
      if final < before + requiredIncrease then .error (.helios .insufficientProfit)
      else .ok (after, final - before) := by
  have first : readAmount runtime state userTokenAccount = .ok before := by
    rw [readAmount, held]
  have last : readAmount runtime after userTokenAccount = .ok final := by
    rw [readAmount, left]
  rw [executeWithCheck, first]
  change (executeHops runtime config remainingAccounts hopAccountCounts hopData state >>= _) = _
  rw [ran]
  change (readAmount runtime after userTokenAccount >>= _) = _
  rw [last]
  change (if u64Max < before + requiredIncrease then _ else _) = _
  rw [if_neg (not_lt.mpr fits)]

end Execution

end Helios.HeliosProgram
