import Helios.ConstantProduct
import Helios.FloatRounding
import Helios.Runs
import Helios.TxBuilder

/-! The sale of sniped tokens: the vaults are polled until an exit rule fires, then the
tokens are sold or, for less than 5000 lamports, burned. A vault that could not be read
counts as empty. -/

namespace Helios.AutoSell

open FloatArith Machine

/-- The reply to `getAccountInfo`, with the text at `data.parsed.info.tokenAmount.amount`. -/
inductive RpcAnswer
  | notSent
  | notJson
  | account (amount : Option String)

/-- `parse::<u64>`. -/
def parseU64 (text : String) : Option Nat :=
  let digits : List Char := match text.toList with
    | '+' :: rest => rest
    | chars => chars
  let number : Nat := digits.foldl (fun value digit => value * 10 + (digit.toNat - '0'.toNat)) 0
  if digits ≠ [] ∧ digits.all Char.isDigit = true ∧ number ≤ u64Max then some number else none

def extractTokenBalance : RpcAnswer → Option Nat
  | .notSent => none
  | .notJson => none
  | .account amount => amount.bind parseU64

def readVaultBalance (answer : RpcAnswer) : Nat := (extractTokenBalance answer).getD 0

/-- A vault and what is heard of it: its balance, or nothing. -/
structure VaultRead where
  balance : Nat
  answer : RpcAnswer
  truthful : ∀ amount, extractTokenBalance answer = some amount → amount = balance

namespace VaultRead

def reading (vault : VaultRead) : Nat := readVaultBalance vault.answer

def Succeeded (vault : VaultRead) : Prop := (extractTokenBalance vault.answer).isSome = true

instance (vault : VaultRead) : Decidable vault.Succeeded :=
  inferInstanceAs (Decidable ((extractTokenBalance vault.answer).isSome = true))

end VaultRead

structure Poll where
  wsol : VaultRead
  token : VaultRead
  elapsedMs : Nat

def Poll.Succeeded (poll : Poll) : Prop := poll.wsol.Succeeded ∧ poll.token.Succeeded

instance (poll : Poll) : Decidable poll.Succeeded :=
  inferInstanceAs (Decidable (poll.wsol.Succeeded ∧ poll.token.Succeeded))

/-- The position that is held, with the token program of its account. -/
structure Position where
  payer : Pubkey
  tokenMint : Pubkey
  tokenAta : Pubkey
  tokenProgram : Pubkey
  tokenBalance : Nat
  snipeCost : Nat

structure Monitor where
  peakSolOut : Nat
  finalSolOut : Nat
  consecutiveDrops : Nat
  prevSolOut : Nat
  pollCount : Nat

def Monitor.start : Monitor := ⟨0, 0, 0, 0, 0⟩

inductive SellReason
  | rugPatternDetected
  | emergencyStopLoss
  | poolDrainDetected
  | takeProfitImmediate
  | peakDropExit
  | maxHoldProfit
  | maxHoldCutLoss
  deriving DecidableEq

def solOut (tokenBalance wsolReserve tokenReserve : Nat) : Nat :=
  if 0 < wsolReserve ∧ 0 < tokenReserve then
    wrap 64 (wsolReserve * tokenBalance / (tokenReserve + tokenBalance))
  else 0

/-- The counters are far from their limit when the time of the hold is up. -/
def observe (state : Monitor) (out : Nat) : Monitor :=
  let drops := if state.peakSolOut < out then 0 else state.consecutiveDrops
  { peakSolOut := if state.peakSolOut < out then out else state.peakSolOut
    finalSolOut := out
    consecutiveDrops :=
      if 0 < state.pollCount ∧ out < state.prevSolOut then drops + 1
      else if state.prevSolOut < out then 0
      else drops
    prevSolOut := out
    pollCount := state.pollCount + 1 }

def gainPct (snipeCost out : Nat) : Double :=
  if 0 < snipeCost then
    mul (div (sub (ofNat out) (ofNat snipeCost)) (ofNat snipeCost)) (ofNat 100)
  else ofNat 0

def dropFromPeakPct (peak out : Nat) : Double :=
  if 0 < peak then mul (div (sub (ofNat peak) (ofNat out)) (ofNat peak)) (ofNat 100)
  else ofNat 0

/-- The rules by urgency, on the monitor that has seen the poll. -/
def exitRule (snipeCost : Nat) (state : Monitor) (wsolReserve elapsedMs : Nat) :
    Option SellReason :=
  let out := state.finalSolOut
  if 3 ≤ state.consecutiveDrops ∧ 4 ≤ state.pollCount then some .rugPatternDetected
  else if 0 < out ∧ 0 < snipeCost ∧ out < wrap 64 (snipeCost * 90) / 100 then
    some .emergencyStopLoss
  else if 0 < wsolReserve ∧ wsolReserve < 1000000000 ∧ 1 < state.pollCount then
    some .poolDrainDetected
  else if le (ofRat (1 / 2)) (gainPct snipeCost out) = true ∧ 2 ≤ state.pollCount then
    some .takeProfitImmediate
  else if 0 < state.peakSolOut ∧
      le (ofNat 5) (dropFromPeakPct state.peakSolOut out) = true ∧ 2 ≤ state.pollCount then
    some .peakDropExit
  else if 8 ≤ elapsedMs / 1000 then
    some (if snipeCost ≤ out then .maxHoldProfit else .maxHoldCutLoss)
  else none

/-- What ends the loop, with the poll it ends at and the monitor before it. -/
structure Exit where
  met : Monitor
  poll : Poll
  reason : SellReason
  finalSolOut : Nat

/-- The exit rule that fires at a poll with these reserves. -/
def fires (position : Position) (state : Monitor) (wsolReserve tokenReserve elapsedMs : Nat) :
    Option SellReason :=
  exitRule position.snipeCost
    (observe state (solOut position.tokenBalance wsolReserve tokenReserve)) wsolReserve elapsedMs

def poll (position : Position) (state : Monitor) (input : Poll) : Except Exit Monitor :=
  let seen := observe state
    (solOut position.tokenBalance input.wsol.reading input.token.reading)
  match fires position state input.wsol.reading input.token.reading input.elapsedMs with
  | some reason => .error ⟨state, input, reason, seen.finalSolOut⟩
  | none => .ok seen

def monitor (position : Position) (polls : List Poll) : Except Exit Monitor :=
  polls.foldlM (poll position) .start

def burnAndClose (position : Position) : List Instruction :=
  [⟨position.tokenProgram,
      [.new position.tokenAta false, .new position.tokenMint false,
        .newReadonly position.payer true],
      8 :: leBytes 8 position.tokenBalance⟩,
    ⟨position.tokenProgram,
      [.new position.tokenAta false, .new position.payer false, .newReadonly position.payer true],
      [9]⟩]

inductive Disposal
  | burned (instructions : List Instruction)
  | sold (reason : SellReason) (minSolOut : Nat)

/-- The sale accepts 30 % of slippage. -/
def dispose (position : Position) (exit : Exit) : Disposal :=
  if exit.finalSolOut < 5000 then .burned (burnAndClose position)
  else .sold exit.reason (wrap 64 (exit.finalSolOut * (10000 - 3000)) / 10000)

theorem parseU64_le (text : String) (number : Nat) (parsed : parseU64 text = some number) :
    number ≤ u64Max := by
  rw [parseU64, Option.ite_none_right_eq_some] at parsed
  rw [← Option.some.inj parsed.2]
  exact parsed.1.2.2

namespace VaultRead

theorem reading_of_failed (vault : VaultRead) (failed : ¬ vault.Succeeded) : vault.reading = 0 := by
  have missing : extractTokenBalance vault.answer = none := by simpa [Succeeded] using failed
  rw [reading, readVaultBalance, missing]
  rfl

theorem reading_of_succeeded (vault : VaultRead) (succeeded : vault.Succeeded) :
    vault.reading = vault.balance ∧ vault.reading ≤ u64Max := by
  rcases Option.isSome_iff_exists.mp succeeded with ⟨amount, found⟩
  have same : vault.reading = amount := by
    rw [reading, readVaultBalance, found]
    rfl
  rw [same]
  refine ⟨vault.truthful amount found, ?_⟩
  cases answer : vault.answer with
  | notSent =>
      rw [answer] at found
      cases found
  | notJson =>
      rw [answer] at found
      cases found
  | account text =>
      rw [answer] at found
      rcases Option.bind_eq_some_iff.mp found with ⟨digits, -, parsed⟩
      exact parseU64_le digits amount parsed

end VaultRead

/-- What a constant-product pool with both sides filled pays for the tokens. -/
def obtainable (tokenBalance wsolBalance tokenHeld : Nat) : Nat :=
  if 0 < wsolBalance ∧ 0 < tokenHeld then
    ConstantProduct.output tokenHeld wsolBalance tokenBalance
  else 0

theorem solOut_eq_obtainable (tokenBalance wsolReserve tokenReserve : Nat)
    (fits : wsolReserve ≤ u64Max) :
    solOut tokenBalance wsolReserve tokenReserve =
      obtainable tokenBalance wsolReserve tokenReserve := by
  have within := ConstantProduct.output_le tokenReserve wsolReserve tokenBalance
  rw [ConstantProduct.output, Nat.mul_comm] at within
  rw [solOut, obtainable, ConstantProduct.output, Nat.mul_comm tokenBalance]
  split
  · apply wrap_of_lt
    have limit : u64Max < 2 ^ 64 := by decide
    omega
  · rfl

theorem solOut_of_failed (tokenBalance : Nat) (input : Poll) (failed : ¬ input.Succeeded) :
    solOut tokenBalance input.wsol.reading input.token.reading = 0 := by
  rw [solOut, if_neg]
  intro ⟨wsol, token⟩
  apply failed
  constructor
  · by_contra lost
    rw [input.wsol.reading_of_failed lost] at wsol
    exact Nat.lt_irrefl 0 wsol
  · by_contra lost
    rw [input.token.reading_of_failed lost] at token
    exact Nat.lt_irrefl 0 token

/-- An estimate of nothing is no gain, -/
theorem no_gain (snipeCost : Nat) : le (ofRat (1 / 2)) (gainPct snipeCost 0) = false := by
  have half : 0 < (Double.round (1 / 2 : ℚ)).value := Double.round_pos _ (by norm_num)
  apply decide_eq_false
  change ¬ (Double.round (1 / 2 : ℚ)).value ≤ (gainPct snipeCost 0).value
  rw [not_le]
  apply lt_of_le_of_lt _ half
  rw [gainPct]
  split
  · next paid =>
      have cost : 0 < (Double.round (snipeCost : ℚ)).value :=
        Double.round_pos _ (by exact_mod_cast paid)
      have zero : (Double.round ((0 : Nat) : ℚ)).value ≤ 0 := Double.round_nonpos _ (by simp)
      have hundred := Double.round_nonneg ((100 : Nat) : ℚ) (by norm_num)
      have lost := Double.round_nonpos
        ((Double.round ((0 : Nat) : ℚ)).value - (Double.round (snipeCost : ℚ)).value) (by linarith)
      have ratio := Double.round_nonpos _ (div_nonpos_of_nonpos_of_nonneg lost (le_of_lt cost))
      exact Double.round_nonpos _ (mul_nonpos_of_nonpos_of_nonneg ratio hundred)
  · exact Double.round_nonpos _ (by simp)

/-- and a whole loss from any peak. -/
theorem whole_drop (peak : Nat) (reached : 0 < peak) :
    le (ofNat 5) (dropFromPeakPct peak 0) = true := by
  have exact : (0 : ℚ) < peak := by exact_mod_cast reached
  have top := Double.round_pos (peak : ℚ) exact
  have zero : (Double.round ((0 : Nat) : ℚ)).value ≤ 0 := Double.round_nonpos _ (by simp)
  apply decide_eq_true
  change (Double.round ((5 : Nat) : ℚ)).value ≤ (dropFromPeakPct peak 0).value
  rw [dropFromPeakPct, if_pos reached]
  -- four roundings on the way to 100, each down by at most one part in 2 ^ 53
  have lost := Double.le_round
    ((Double.round (peak : ℚ)).value - (Double.round ((0 : Nat) : ℚ)).value) (by linarith)
  have ratio : 1 - 1 / 2 ^ 53 ≤
      (Double.round ((Double.round (peak : ℚ)).value -
        (Double.round ((0 : Nat) : ℚ)).value)).value / (Double.round (peak : ℚ)).value := by
    rw [le_div_iff₀ top]
    calc (1 - 1 / 2 ^ 53) * (Double.round (peak : ℚ)).value
        = (Double.round (peak : ℚ)).value * (1 - 1 / 2 ^ 53) := mul_comm _ _
      _ ≤ ((Double.round (peak : ℚ)).value - (Double.round ((0 : Nat) : ℚ)).value) *
            (1 - 1 / 2 ^ 53) := mul_le_mul_of_nonneg_right (by linarith) (by norm_num)
      _ ≤ _ := lost
  have share := Double.le_round _ (le_trans (by norm_num) ratio)
  have hundred := Double.le_round ((100 : Nat) : ℚ) (by norm_num)
  have product : (1 - 1 / 2 ^ 53) * (1 - 1 / 2 ^ 53) * (100 * (1 - 1 / 2 ^ 53)) ≤
      (Double.round ((Double.round ((Double.round (peak : ℚ)).value -
        (Double.round ((0 : Nat) : ℚ)).value)).value / (Double.round (peak : ℚ)).value)).value *
        (Double.round ((100 : Nat) : ℚ)).value := by
    apply mul_le_mul (le_trans (mul_le_mul_of_nonneg_right ratio (by norm_num)) share)
      (by exact_mod_cast hundred) (by norm_num)
    exact Double.round_nonneg _ (le_trans (by norm_num) ratio)
  have low := Double.le_round _ (le_trans (by norm_num) product)
  have five := Double.round_le ((5 : Nat) : ℚ) (by norm_num)
  calc (Double.round ((5 : Nat) : ℚ)).value
      ≤ 5 * (1 + 1 / 2 ^ 53) := by exact_mod_cast five
    _ ≤ (1 - 1 / 2 ^ 53) * (1 - 1 / 2 ^ 53) * (100 * (1 - 1 / 2 ^ 53)) * (1 - 1 / 2 ^ 53) := by
        norm_num
    _ ≤ _ := mul_le_mul_of_nonneg_right product (by norm_num)
    _ ≤ _ := low

theorem rule_silent_iff (holds : Prop) [Decidable holds] (reason : SellReason)
    (rest : Option SellReason) :
    (if holds then some reason else rest) = none ↔ ¬ holds ∧ rest = none := by
  split
  · next fired => simp [fired]
  · next silent => simp [silent]

/-- Where nothing is to be had, the gain and the loss from the cost are silent, and any
peak has dropped. -/
theorem exitRule_of_nothing (snipeCost : Nat) (state : Monitor) (wsolReserve elapsedMs : Nat)
    (nothing : state.finalSolOut = 0) :
    exitRule snipeCost state wsolReserve elapsedMs = none ↔
      ¬ (3 ≤ state.consecutiveDrops ∧ 4 ≤ state.pollCount) ∧
        ¬ (0 < wsolReserve ∧ wsolReserve < 1000000000 ∧ 1 < state.pollCount) ∧
        ¬ (0 < state.peakSolOut ∧ 2 ≤ state.pollCount) ∧ elapsedMs < 8000 := by
  have dropped : (0 < state.peakSolOut ∧
      le (ofNat 5) (dropFromPeakPct state.peakSolOut 0) = true ∧ 2 ≤ state.pollCount) ↔
      0 < state.peakSolOut ∧ 2 ≤ state.pollCount := by
    constructor
    · intro ⟨reached, _, twice⟩
      exact ⟨reached, twice⟩
    · intro ⟨reached, twice⟩
      exact ⟨reached, whole_drop _ reached, twice⟩
  have timed : ¬ 8 ≤ elapsedMs / 1000 ↔ elapsedMs < 8000 := by omega
  simp only [exitRule, nothing, no_gain, dropped, Nat.lt_irrefl, Bool.false_eq_true, false_and,
    if_false, rule_silent_iff, timed, and_true]

/-- What the polls so far have left in the monitor. -/
structure Watched (tokenBalance : Nat) (before : List Poll) (state : Monitor) : Prop where
  counted : state.pollCount = before.length
  peak : state.peakSolOut = 0 ↔ ∀ earlier ∈ before,
    solOut tokenBalance earlier.wsol.reading earlier.token.reading = 0
  prev : state.prevSolOut ≤ state.peakSolOut
  calm : state.peakSolOut = 0 → state.consecutiveDrops = 0

theorem watched_start (tokenBalance : Nat) : Watched tokenBalance [] Monitor.start :=
  ⟨rfl, by simp [Monitor.start], le_refl _, fun _ => rfl⟩

theorem poll_ok_iff (position : Position) (state next : Monitor) (input : Poll) :
    poll position state input = .ok next ↔
      fires position state input.wsol.reading input.token.reading input.elapsedMs = none ∧
        next = observe state
          (solOut position.tokenBalance input.wsol.reading input.token.reading) := by
  rw [poll]
  cases fires position state input.wsol.reading input.token.reading input.elapsedMs with
  | none => simp [eq_comm]
  | some reason => simp

theorem poll_error_iff (position : Position) (state : Monitor) (input : Poll) (exit : Exit) :
    poll position state input = .error exit ↔
      ∃ reason,
        fires position state input.wsol.reading input.token.reading input.elapsedMs =
          some reason ∧
        exit = ⟨state, input, reason,
          solOut position.tokenBalance input.wsol.reading input.token.reading⟩ := by
  rw [poll]
  cases fires position state input.wsol.reading input.token.reading input.elapsedMs with
  | none => simp
  | some reason => simp [observe, eq_comm]

theorem watched_poll (position : Position) (before : List Poll) (state : Monitor) (input : Poll)
    (next : Monitor) (watched : Watched position.tokenBalance before state)
    (done : poll position state input = .ok next) :
    Watched position.tokenBalance (before ++ [input]) next := by
  rw [((poll_ok_iff position state next input).mp done).2]
  have peak := watched.peak
  have prev := watched.prev
  have calm := watched.calm
  constructor
  · rw [List.length_append, ← watched.counted]
    rfl
  · simp only [List.mem_append, List.mem_singleton, or_imp, forall_and, forall_eq, ← peak]
    change (if _ then _ else _) = 0 ↔ _
    split
    · omega
    · omega
  · change _ ≤ (if _ then _ else _)
    split
    · exact le_refl _
    · next high => exact not_lt.mp high
  · change (if _ then _ else _) = 0 → (if _ then _ else _) = 0
    intro none
    split at none
    · omega
    · next high =>
        have settled := calm none
        rw [if_neg high, settled, if_neg (by omega)]
        split
        · rfl
        · rfl

theorem watched_of_reached (position : Position) (before : List Poll) (state : Monitor)
    (reached : monitor position before = .ok state) :
    Watched position.tokenBalance before state :=
  Runs.foldlM_invariant (poll position) (Watched position.tokenBalance) .start
    (watched_start position.tokenBalance)
    (fun before state input next watched done =>
      watched_poll position before state input next watched done) before state reached

/-- A failed poll after polls that showed nothing, in a pool not seen to be drained and
before the time is up. -/
structure Harmless (tokenBalance : Nat) (before : List Poll) (input : Poll) : Prop where
  unquoted : ∀ earlier ∈ before,
    solOut tokenBalance earlier.wsol.reading earlier.token.reading = 0
  undrained : before = [] ∨ input.wsol.reading = 0 ∨ 1000000000 ≤ input.wsol.reading
  early : input.elapsedMs < 8000

theorem fires_none_of_failed_iff (position : Position) (before : List Poll) (state : Monitor)
    (input : Poll) (watched : Watched position.tokenBalance before state)
    (failed : ¬ input.Succeeded) :
    fires position state input.wsol.reading input.token.reading input.elapsedMs = none ↔
      Harmless position.tokenBalance before input := by
  have counted := watched.counted
  have prev := watched.prev
  have calm := watched.calm
  have seen : 0 < state.peakSolOut → before ≠ [] := by
    intro reached empty
    have unseen := watched.peak.mpr (by simp [empty])
    omega
  rw [fires, solOut_of_failed position.tokenBalance input failed, exitRule_of_nothing _ _ _ _ rfl]
  change ¬ (3 ≤ (if _ then _ else _) ∧ 4 ≤ state.pollCount + 1) ∧
    ¬ (_ ∧ _ ∧ 1 < state.pollCount + 1) ∧
    ¬ (0 < (if state.peakSolOut < 0 then 0 else state.peakSolOut) ∧ 2 ≤ state.pollCount + 1) ∧ _ ↔ _
  simp only [Nat.not_lt_zero, if_false]
  have filled : before ≠ [] ↔ 0 < before.length := List.length_pos_iff.symm
  constructor
  · intro ⟨_, undrained, dropped, early⟩
    refine ⟨watched.peak.mp ?_, ?_, early⟩
    · by_contra reached
      have some := filled.mp (seen (Nat.pos_of_ne_zero reached))
      omega
    · by_cases empty : before = []
      · exact Or.inl empty
      · have some := filled.mp empty
        right
        omega
  · intro harmless
    have unseen := watched.peak.mpr harmless.unquoted
    have settled := calm unseen
    refine ⟨?_, ?_, ?_, harmless.early⟩
    · rw [settled, if_neg (by omega)]
      omega
    · rcases harmless.undrained with empty | nothing | deep
      · rw [counted, empty, List.length_nil]
        omega
      · omega
      · omega
    · omega

/-- The tokens are burned only on what a poll of both vaults has shown, and the rule that
ends the loop fires on the true balances too. -/
structure Spared (position : Position) (exit : Exit) : Prop where
  burn : ∀ instructions, dispose position exit = .burned instructions →
    exit.poll.Succeeded ∧
      obtainable position.tokenBalance exit.poll.wsol.balance exit.poll.token.balance < 5000
  rule : (fires position exit.met exit.poll.wsol.balance exit.poll.token.balance
    exit.poll.elapsedMs).isSome = true

def SparesPosition (position : Position) (polls : List Poll) : Prop :=
  ∀ exit, monitor position polls = .error exit → Spared position exit

/-- A poll of both vaults shows their balances. -/
theorem spared_of_succeeded (position : Position) (state : Monitor) (input : Poll) (exit : Exit)
    (succeeded : input.Succeeded) (stopped : poll position state input = .error exit) :
    Spared position exit := by
  rcases (poll_error_iff position state input exit).mp stopped with ⟨reason, fired, same⟩
  rcases input.wsol.reading_of_succeeded succeeded.1 with ⟨wsol, fits⟩
  rcases input.token.reading_of_succeeded succeeded.2 with ⟨token, -⟩
  have shown := solOut_eq_obtainable position.tokenBalance input.wsol.reading input.token.reading
    fits
  rw [same]
  constructor
  · intro instructions burned
    refine ⟨succeeded, ?_⟩
    rw [← wsol, ← token, ← shown]
    by_contra enough
    rw [dispose, if_neg enough] at burned
    cases burned
  · rw [← wsol, ← token, fired]
    rfl

/-- No position is destroyed by a failed read exactly if every poll that fails is harmless. -/
theorem sparesPosition_iff (position : Position) (polls : List Poll) :
    SparesPosition position polls ↔
      ∀ before input later, polls = before ++ input :: later →
        (∃ state, monitor position before = .ok state) → ¬ input.Succeeded →
          Harmless position.tokenBalance before input := by
  constructor
  · intro spares before input later split ⟨state, reached⟩ failed
    have watched := watched_of_reached position before state reached
    rw [← fires_none_of_failed_iff position before state input watched failed]
    by_contra fired
    rcases Option.ne_none_iff_exists'.mp fired with ⟨reason, fired⟩
    have stopped := (poll_error_iff position state input _).mpr ⟨reason, fired, rfl⟩
    have ended := (Runs.foldlM_error_iff (poll position) .start polls _).mpr
      ⟨before, input, later, state, split, reached, stopped⟩
    have spared := spares _ ended
    apply failed
    apply (spared.burn (burnAndClose position) _).1
    rw [dispose, if_pos]
    rw [solOut_of_failed position.tokenBalance input failed]
    norm_num
  · intro harmless exit ended
    rcases (Runs.foldlM_error_iff (poll position) .start polls exit).mp ended with
      ⟨before, input, later, state, split, reached, stopped⟩
    by_cases succeeded : input.Succeeded
    · exact spared_of_succeeded position state input exit succeeded stopped
    · have watched := watched_of_reached position before state reached
      have silent := (fires_none_of_failed_iff position before state input watched succeeded).mpr
        (harmless before input later split ⟨state, reached⟩ succeeded)
      rcases (poll_error_iff position state input exit).mp stopped with ⟨reason, fired, -⟩
      rw [silent] at fired
      cases fired

/-- 85 SOL against 793 million tokens. -/
def graduated : Poll where
  wsol := ⟨85000000000, .account (some "85000000000"), by decide +kernel⟩
  token := ⟨793000000000000, .account (some "793000000000000"), by decide +kernel⟩
  elapsedMs := 40

/-- The same pool 150 ms later, with the request for one vault timed out. -/
def timedOut : Poll where
  wsol := ⟨85000000000, .notSent, by decide⟩
  token := graduated.token
  elapsedMs := 190

/-- Tokens worth a tenth of a SOL. -/
def sniped : Position := ⟨.ofNat 1, .ofNat 2, .ofNat 3, .ofNat 4, 1000000000000, 107000000⟩

/-- One lost reply and the position is burned. -/
theorem lost_reply_burns : ¬ SparesPosition sniped [graduated, timedOut] := by
  intro spares
  have first := (poll_ok_iff sniped .start _ graduated).mpr ⟨by decide +kernel, rfl⟩
  have reached : monitor sniped [graduated] = poll sniped .start graduated := by
    rw [monitor, List.foldlM_cons, first]
    rfl
  have harmless := (sparesPosition_iff sniped [graduated, timedOut]).mp spares [graduated] timedOut
    [] rfl ⟨_, reached.trans first⟩ (by decide)
  have quoted := harmless.unquoted graduated (List.mem_singleton_self _)
  exact absurd quoted (by decide +kernel)

end Helios.AutoSell
