import Helios.PortReceiver
import Helios.VenueSwap
import Helios.VenueSwap

/-! What a transaction that lands leaves in the payer's borrow-token account. The
on-chain program, the receiver of a Port loan and the lenders bound a step; what a
DEX pays is up to its pools, and a hop's minimum is 1. -/

namespace Helios.Landing

open Fallible FlashLoans FlashSequence HeliosProgram Machine PortReceiver RouteExecution
open TxBuilder VenueSwap

/-- `FlashSelector::fee`, rounded down. -/
def fee (provider : FlashProvider) (borrowAmount : Nat) : Nat :=
  borrowAmount * provider.feeBps / 10000

/-- The payer's borrow-token account, and what the lender still has to get. -/
structure Funds where
  balance : Nat
  owed : Nat

inductive Effect where
  | neutral
  | swap
  | helios (minProfit : Nat)
  | borrow (amount : Nat)
  | repay (amount : Nat)
  /-- A loan whose callback runs the hops and pays it back. -/
  | callback (amount minProfit : Nat)
  deriving DecidableEq

/-- The outcomes of an instruction that succeeds. -/
inductive Step (provider : FlashProvider) : Effect → Funds → Funds → Prop
  | neutral (funds : Funds) : Step provider .neutral funds funds
  | swap (funds : Funds) (after : Nat) : Step provider .swap funds ⟨after, funds.owed⟩
  | helios (minProfit : Nat) (funds : Funds) (after : Nat)
      (checked : funds.balance + minProfit ≤ after) :
      Step provider (.helios minProfit) funds ⟨after, funds.owed⟩
  | borrow (amount : Nat) (funds : Funds) :
      Step provider (.borrow amount) funds
        ⟨funds.balance + amount, funds.owed + (amount + fee provider amount)⟩
  | repay (amount : Nat) (funds : Funds) (paid : amount + fee provider amount ≤ funds.balance) :
      Step provider (.repay amount) funds ⟨funds.balance - (amount + fee provider amount),
        funds.owed - (amount + fee provider amount)⟩
  | callback (amount minProfit : Nat) (funds : Funds) (after : Nat)
      (checked : funds.balance + amount + minProfit ≤ after)
      (paid : amount + fee provider amount ≤ after) :
      Step provider (.callback amount minProfit) funds
        ⟨after - (amount + fee provider amount), funds.owed⟩

inductive Steps (provider : FlashProvider) : List Effect → Funds → Funds → Prop
  | nil (funds : Funds) : Steps provider [] funds funds
  | cons (effect : Effect) (rest : List Effect) (start middle final : Funds)
      (first : Step provider effect start middle) (later : Steps provider rest middle final) :
      Steps provider (effect :: rest) start final

/-- The instruction's part, and the plan of the instruction behind a Port loan. -/
def effectOf (heliosProgram : Pubkey) (provider : FlashProvider) (ix : Instruction)
    (next : Option Instruction) : Effect :=
  if ix.programId = heliosProgram then
    match HeliosCall.decode ix.data with
    | some (.executeFlashArb _ plan) => .helios plan.minProfit
    | some (.executeRouteOnly plan) => .helios plan.minProfit
    | none => .neutral
  else
    match loanRole provider ix with
    | .borrow amount _ =>
        if provider = .portFinance then
          match next.bind (fun carrierIx => PortFlashReceiverInstruction.tryFromSlice carrierIx.data) with
          | some (.carryPlan minProfit _ _) => .callback amount minProfit
          | _ => .callback amount 0
        else .borrow amount
    | .repay amount _ => .repay amount
    | .other => if DexType.fromProgramId ix.programId = .unknown then .neutral else .swap

def effects (heliosProgram : Pubkey) (provider : FlashProvider) : List Instruction → List Effect
  | [] => []
  | ix :: rest =>
      effectOf heliosProgram provider ix rest.head? :: effects heliosProgram provider rest

/-- A transaction lands when every instruction succeeds and the lender can be paid
in full, which leaves the final balance. -/
def Lands (provider : FlashProvider) (work : List Effect) (start final : Nat) : Prop :=
  ∃ funds, Steps provider work ⟨start, 0⟩ funds ∧ funds.owed ≤ funds.balance ∧
    final = funds.balance - funds.owed

/-- A run of the on-chain program that succeeds is a step of its kind. -/
theorem helios_step_of_run {State : Type} (runtime : Runtime State) (config : HeliosConfig)
    (userTokenAccount : Pubkey) (infos : List AccountInfo) (required : Nat) (counts : List UInt8)
    (data : List (List UInt8)) (state after : State) (profit : Nat)
    (ran : executeWithCheck runtime config userTokenAccount infos required counts data state =
      .ok (after, profit)) (provider : FlashProvider) (owed : Nat) :
    ∃ before final, runtime.tokenAmount state userTokenAccount = some before ∧
      runtime.tokenAmount after userTokenAccount = some final ∧
      Step provider (.helios required) ⟨before, owed⟩ ⟨final, owed⟩ := by
  simp only [executeWithCheck, bind_eq_ok_iff] at ran
  rcases ran with ⟨before, readBefore, middle, hopsRan, final, readFinal, checked⟩
  split at checked
  · cases checked
  · split at checked
    · cases checked
    · next enough =>
        cases checked
        refine ⟨before, final, ?_, ?_, .helios required ⟨before, owed⟩ final (not_lt.mp enough)⟩
        · rw [readAmount] at readBefore
          split at readBefore
          · next amount held =>
              cases readBefore
              exact held
          · cases readBefore
        · rw [readAmount] at readFinal
          split at readFinal
          · next amount held =>
              cases readFinal
              exact held
          · cases readFinal

section Runs

variable (provider : FlashProvider)

theorem steps_append (first second : List Effect) (start final : Funds) :
    Steps provider (first ++ second) start final ↔
      ∃ middle, Steps provider first start middle ∧ Steps provider second middle final := by
  induction first generalizing start with
  | nil =>
      constructor
      · exact fun later => ⟨start, .nil start, later⟩
      · intro ⟨middle, empty, later⟩
        cases empty
        exact later
  | cons effect rest ih =>
      constructor
      · intro run
        cases run with
        | cons _ _ _ middle _ here later =>
            rcases (ih middle).mp later with ⟨between, left, right⟩
            exact ⟨between, .cons effect rest start middle between here left, right⟩
      · intro ⟨between, left, right⟩
        cases left with
        | cons _ _ _ middle _ here later =>
            exact .cons effect (rest ++ second) start middle final here
              ((ih middle).mpr ⟨between, later, right⟩)

def active (effect : Effect) : Bool := decide (effect ≠ .neutral)

/-- Instructions that do nothing can be left out. -/
theorem steps_active (work : List Effect) (start final : Funds) :
    Steps provider (work.filter active) start final ↔ Steps provider work start final := by
  induction work generalizing start with
  | nil => exact Iff.rfl
  | cons effect rest ih =>
      by_cases idle : effect = .neutral
      · subst idle
        have skipped : (Effect.neutral :: rest).filter active = rest.filter active := rfl
        rw [skipped, ih start]
        constructor
        · intro run
          exact .cons .neutral rest start start final (.neutral start) run
        · intro run
          cases run with
          | cons _ _ _ middle _ first later =>
              cases first
              exact later
      · have kept : (effect :: rest).filter active = effect :: rest.filter active :=
          List.filter_cons_of_pos (decide_eq_true idle)
        rw [kept]
        constructor
        · intro run
          cases run with
          | cons _ _ _ middle _ first later =>
              exact .cons effect rest start middle final first ((ih middle).mp later)
        · intro run
          cases run with
          | cons _ _ _ middle _ first later =>
              exact .cons effect _ start middle final first ((ih middle).mpr later)

/-- Swaps can leave any balance, and touch nothing else. -/
theorem steps_swaps (count : Nat) (start final : Funds) :
    Steps provider (List.replicate (count + 1) .swap) start final ↔ final.owed = start.owed := by
  induction count generalizing start with
  | zero =>
      constructor
      · intro run
        cases run with
        | cons _ _ _ middle _ first later =>
            cases first
            cases later
            rfl
      · intro same
        have reached : final = ⟨final.balance, start.owed⟩ := by rw [← same]
        rw [reached]
        exact .cons .swap [] start _ _ (.swap start final.balance) (.nil _)
  | succ count ih =>
      rw [List.replicate_succ]
      constructor
      · intro run
        cases run with
        | cons _ _ _ middle _ first later =>
            cases first with
            | swap _ after => exact (ih ⟨after, start.owed⟩).mp later
      · intro same
        exact .cons .swap _ start ⟨final.balance, start.owed⟩ final (.swap start final.balance)
          ((ih _).mpr same)

/-- What a loan can leave when the hops are checked between its two ends. -/
def CheckedOutcome (amount start final : Nat) : Prop :=
  ∃ after, start + amount ≤ after ∧ amount + fee provider amount ≤ after ∧
    final = after - (amount + fee provider amount)

/-- What a loan can leave around swaps that nothing checks. -/
def OpenOutcome (amount final : Nat) : Prop :=
  ∃ after, amount + fee provider amount ≤ after ∧
    final = after - (amount + fee provider amount)

/-- A step of the work, and what it leaves the rest to do. -/
theorem steps_cons (effect : Effect) (rest : List Effect) (start final : Funds) :
    Steps provider (effect :: rest) start final ↔
      ∃ middle, Step provider effect start middle ∧ Steps provider rest middle final := by
  constructor
  · intro run
    cases run with
    | cons _ _ _ middle _ first later => exact ⟨middle, first, later⟩
  · intro ⟨middle, first, later⟩
    exact .cons effect rest start middle final first later

theorem steps_nil (start final : Funds) : Steps provider [] start final ↔ final = start := by
  constructor
  · intro run
    cases run
    rfl
  · intro same
    rw [same]
    exact .nil start

theorem lands_callback (amount start final : Nat) :
    Lands provider [.callback amount 0] start final ↔ CheckedOutcome provider amount start final := by
  constructor
  · intro ⟨funds, run, _, same⟩
    rcases (steps_cons provider _ _ _ _).mp run with ⟨middle, first, later⟩
    cases (steps_nil provider _ _).mp later
    cases first with
    | callback _ _ _ after checked paid =>
        exact ⟨after, checked, paid, same⟩
  · intro ⟨after, checked, paid, same⟩
    refine ⟨⟨final, 0⟩, ?_, Nat.zero_le _, rfl⟩
    rw [same]
    exact .cons _ _ _ _ _ (.callback amount 0 ⟨start, 0⟩ after checked paid) (.nil _)

/-- The loan is settled at the end, by its own instruction or by the lender. -/
theorem lands_settled (amount start final : Nat) (work : List Effect) (allowed : Nat → Prop)
    (runs : ∀ funds, Steps provider work
      ⟨start + amount, amount + fee provider amount⟩ funds ↔
        allowed funds.balance ∧ funds.owed = amount + fee provider amount) :
    (Lands provider ([.borrow amount] ++ work) start final ↔
      ∃ after, allowed after ∧ amount + fee provider amount ≤ after ∧
        final = after - (amount + fee provider amount)) ∧
    (Lands provider ([.borrow amount] ++ work ++ [.repay amount]) start final ↔
      ∃ after, allowed after ∧ amount + fee provider amount ≤ after ∧
        final = after - (amount + fee provider amount)) := by
  have opens : ∀ rest funds, Steps provider (.borrow amount :: rest) ⟨start, 0⟩ funds ↔
      Steps provider rest ⟨start + amount, amount + fee provider amount⟩ funds := by
    intro rest funds
    rw [steps_cons]
    constructor
    · intro ⟨middle, first, later⟩
      cases first
      rw [Nat.zero_add] at later
      exact later
    · intro later
      refine ⟨_, .borrow amount ⟨start, 0⟩, ?_⟩
      rw [Nat.zero_add]
      exact later
  constructor
  · constructor
    · intro ⟨funds, run, paid, same⟩
      rcases (runs funds).mp ((opens work funds).mp run) with ⟨fits, owed⟩
      rw [owed] at paid same
      exact ⟨funds.balance, fits, paid, same⟩
    · intro ⟨after, fits, paid, same⟩
      exact ⟨⟨after, amount + fee provider amount⟩,
        (opens work _).mpr ((runs _).mpr ⟨fits, rfl⟩), paid, same⟩
  · constructor
    · intro ⟨funds, run, paid, same⟩
      rcases (steps_append provider work [.repay amount] _ funds).mp
        ((opens _ funds).mp run) with ⟨middle, before, later⟩
      rcases (runs middle).mp before with ⟨fits, owed⟩
      rcases (steps_cons provider _ _ _ _).mp later with ⟨last, repaid, done⟩
      cases (steps_nil provider _ _).mp done
      cases repaid with
      | repay _ _ enough =>
          refine ⟨middle.balance, fits, enough, ?_⟩
          rw [same, owed, Nat.sub_self, Nat.sub_zero]
    · intro ⟨after, fits, paid, same⟩
      refine ⟨⟨final, 0⟩, ?_, Nat.zero_le _, rfl⟩
      refine (opens _ _).mpr ((steps_append provider work [.repay amount] _ _).mpr
        ⟨⟨after, amount + fee provider amount⟩, (runs _).mpr ⟨fits, rfl⟩, ?_⟩)
      have last := Step.repay amount ⟨after, amount + fee provider amount⟩ paid
      rw [Nat.sub_self, ← same] at last
      exact .cons _ _ _ _ _ last (.nil _)

theorem lands_checked (amount start final : Nat) :
    (Lands provider [.borrow amount, .helios 0] start final ↔
      CheckedOutcome provider amount start final) ∧
    (Lands provider [.borrow amount, .helios 0, .repay amount] start final ↔
      CheckedOutcome provider amount start final) := by
  refine lands_settled provider amount start final [.helios 0] (fun after => start + amount ≤ after) ?_
  intro funds
  rw [steps_cons]
  constructor
  · intro ⟨middle, first, later⟩
    cases (steps_nil provider _ _).mp later
    cases first with
    | helios _ _ after checked => exact ⟨checked, rfl⟩
  · intro ⟨checked, owed⟩
    refine ⟨⟨funds.balance, amount + fee provider amount⟩, .helios 0 _ funds.balance checked, ?_⟩
    rw [steps_nil, ← owed]

theorem lands_open (amount start final count : Nat) :
    (Lands provider ([.borrow amount] ++ List.replicate (count + 1) .swap) start final ↔
      OpenOutcome provider amount final) ∧
    (Lands provider ([.borrow amount] ++ List.replicate (count + 1) .swap ++ [.repay amount]) start
        final ↔ OpenOutcome provider amount final) := by
  have settled := lands_settled provider amount start final (List.replicate (count + 1) .swap)
    (fun _ => True) (fun funds => (steps_swaps provider count _ funds).trans (by simp))
  simp only [true_and] at settled
  exact settled

/-- A checked loan loses at most its fee, and some outcome loses if anything can. -/
theorem checked_no_loss_iff (amount start : Nat) :
    (∀ final, CheckedOutcome provider amount start final → start ≤ final) ↔
      start = 0 ∨ fee provider amount = 0 := by
  constructor
  · intro law
    have worst := law (amount + max start (fee provider amount) - (amount + fee provider amount))
      ⟨amount + max start (fee provider amount), by omega, by omega, rfl⟩
    omega
  · intro either final ⟨after, checked, paid, same⟩
    omega

theorem open_no_loss_iff (amount start : Nat) :
    (∀ final, OpenOutcome provider amount final → start ≤ final) ↔ start = 0 := by
  constructor
  · intro law
    have worst := law 0 ⟨amount + fee provider amount, Nat.le_refl _, (Nat.sub_self _).symm⟩
    exact Nat.le_zero.mp worst
  · intro zero final _
    rw [zero]
    exact Nat.zero_le final

theorem lands_active (work : List Effect) (start final : Nat) :
    Lands provider (work.filter active) start final ↔ Lands provider work start final := by
  simp only [Lands, steps_active]

end Runs

/-! The effects of an assembled transaction. -/

def lenderProgram : FlashProvider → Pubkey
  | .marginFi => marginfiProgramId
  | .portFinance => portProgramId
  | .solend => solendProgramId
  | .kamino => kaminoProgramId

/-- The on-chain program and the receiver of Port loans are deployed at addresses
of their own. -/
structure Apart (env : FlashEnv) (builder : TxBuilder) : Prop where
  prologue : builder.heliosProgram ∉ prologuePrograms
  system : builder.heliosProgram ≠ systemProgramId
  lender : ∀ provider, builder.heliosProgram ≠ lenderProgram provider
  dex : DexType.fromProgramId builder.heliosProgram = .unknown
  receiver : builder.heliosProgram ≠ resolvePortReceiver env
  receiverLender : ∀ provider, resolvePortReceiver env ≠ lenderProgram provider
  receiverDex : DexType.fromProgramId (resolvePortReceiver env) = .unknown

theorem loanRole_of_foreign (provider : FlashProvider) (ix : Instruction)
    (foreign : ix.programId ≠ lenderProgram provider) : loanRole provider ix = .other := by
  cases provider with
  | marginFi => exact if_neg (fun both => foreign both.1)
  | portFinance => exact if_neg (fun both => foreign both.1)
  | solend =>
      rw [loanRole, if_neg (fun both => foreign both.1), if_neg (fun both => foreign both.1)]
  | kamino =>
      have noRepay : ¬ isKaminoRepay ix = true := by
        rw [isKaminoRepay, decide_eq_true_iff]
        exact fun both => foreign both.1
      rw [loanRole, if_neg (fun both => foreign both.1), if_neg noRepay]

/-- The programs of a transaction that are no DEX, as numbers. -/
def lenderNumber : FlashProvider → Nat
  | .marginFi => 2347220691806293639428827900514996093801988534716016008815348639507076233019
  | .portFinance => 2642783754313556637409085568379190112239674520997017173149434889847254734152
  | .solend => 2988701836742930407773375347047256035246438894004861344960132585962058759916
  | .kamino => 2124942046077977619906336156481515877251532675532436082254018260872906604552

def computeBudgetNumber : Nat :=
  1368025767066952348686461451745039706232400520618738968488030211887297724416

def associatedTokenNumber : Nat :=
  63590851936555425018482094543133168213809614203979002813017495418995103889497

theorem toNat_lenderProgram (provider : FlashProvider) :
    (lenderProgram provider).toNat = lenderNumber provider := by
  cases provider <;> decide +kernel

theorem toNat_computeBudget : computeBudgetProgramId.toNat = computeBudgetNumber := by
  decide +kernel

theorem toNat_associatedToken : associatedTokenProgramId.toNat = associatedTokenNumber := by
  decide +kernel

theorem fromProgramId_of_number (key : Pubkey) (number : Nat) (same : key.toNat = number)
    (other : ∀ dex, dex ≠ .unknown → number ≠ CrossDex.dexProgramNumber dex) :
    DexType.fromProgramId key = .unknown := by
  apply CrossDex.fromProgramId_unknown
  intro dex known equal
  refine other dex known ?_
  rw [← same, equal, CrossDex.toNat_dexProgramFor]

theorem lender_not_dex (provider : FlashProvider) :
    DexType.fromProgramId (lenderProgram provider) = .unknown := by
  refine fromProgramId_of_number _ _ (toNat_lenderProgram provider) ?_
  intro dex _
  cases provider <;> cases dex <;> decide


/-- The programs in front of a loan, and the one a tip calls, are no DEX and no
lender. -/
theorem quiet_programs (key : Pubkey) (member : key ∈ systemProgramId :: prologuePrograms) :
    DexType.fromProgramId key = .unknown ∧ ∀ provider, key ≠ lenderProgram provider := by
  have quiet : ∀ number, key.toNat = number →
      (∀ dex, dex ≠ .unknown → number ≠ CrossDex.dexProgramNumber dex) →
      (∀ provider, number ≠ lenderNumber provider) →
      DexType.fromProgramId key = .unknown ∧ ∀ provider, key ≠ lenderProgram provider := by
    intro number same notDex notLender
    refine ⟨fromProgramId_of_number key number same notDex, ?_⟩
    intro provider equal
    exact notLender provider (same.symm.trans ((congrArg Pubkey.toNat equal).trans
      (toNat_lenderProgram provider)))
  rcases List.mem_cons.mp member with same | inside
  · refine quiet 0 (congrArg Pubkey.toNat same) ?_ ?_
    · intro dex known
      cases dex <;> first | exact absurd rfl known | decide
    · intro provider
      cases provider <;> decide
  · rcases List.mem_pair.mp inside with same | same
    · refine quiet computeBudgetNumber ((congrArg Pubkey.toNat same).trans toNat_computeBudget)
        ?_ ?_
      · intro dex _
        cases dex <;> decide
      · intro provider
        cases provider <;> decide
    · refine quiet associatedTokenNumber
        ((congrArg Pubkey.toNat same).trans toNat_associatedToken) ?_ ?_
      · intro dex _
        cases dex <;> decide
      · intro provider
        cases provider <;> decide

section Effects

variable {F : Type} [FloatArith F] (powf : F → F → F) (env : FlashEnv) (builder : TxBuilder)
  (provider : FlashProvider)

theorem effectOf_quiet (ix : Instruction) (next : Option Instruction)
    (own : ix.programId ≠ builder.heliosProgram) (idle : loanRole provider ix = .other)
    (unknown : DexType.fromProgramId ix.programId = .unknown) :
    effectOf builder.heliosProgram provider ix next = .neutral := by
  rw [effectOf, if_neg own, idle]
  exact if_pos unknown

theorem effectOf_swap (apart : Apart env builder) (ix : Instruction) (next : Option Instruction)
    (known : DexType.fromProgramId ix.programId ≠ .unknown) :
    effectOf builder.heliosProgram provider ix next = .swap := by
  have own : ix.programId ≠ builder.heliosProgram := by
    intro same
    exact known (same ▸ apart.dex)
  have foreign : ix.programId ≠ lenderProgram provider := by
    intro same
    exact known (same ▸ lender_not_dex provider)
  rw [effectOf, if_neg own, loanRole_of_foreign provider ix foreign]
  exact if_neg known

/-- A list whose instructions have effects of their own, whatever follows each. -/
theorem effects_append (first second : List Instruction) (effect : Instruction → Effect)
    (each : ∀ ix ∈ first, ∀ next, effectOf builder.heliosProgram provider ix next = effect ix) :
    effects builder.heliosProgram provider (first ++ second) =
      first.map effect ++ effects builder.heliosProgram provider second := by
  induction first with
  | nil => rfl
  | cons ix rest ih =>
      have others := ih (fun later member => each later (List.mem_cons_of_mem _ member))
      rw [List.cons_append, effects, others, each ix List.mem_cons_self]
      rfl

theorem effects_quiet (first second : List Instruction)
    (each : ∀ ix ∈ first, ∀ next, effectOf builder.heliosProgram provider ix next = .neutral) :
    (effects builder.heliosProgram provider (first ++ second)).filter active =
      (effects builder.heliosProgram provider second).filter active := by
  have idle : (first.map (fun _ => Effect.neutral)).filter active = [] := by
    rw [List.filter_eq_nil_iff]
    intro effect member
    rcases List.mem_map.mp member with ⟨_, _, same⟩
    rw [← same]
    decide
  rw [effects_append builder provider first second _ each, List.filter_append, idle,
    List.nil_append]

/-- The work of a wrapped list between its prologue and the tip. -/
def loanWork (amount : Nat) (middle : List Effect) : FlashProvider → List Effect
  | .marginFi => [.borrow amount] ++ middle
  | .portFinance => [.callback amount 0]
  | _ => [.borrow amount] ++ middle ++ [.repay amount]

variable {env builder provider} in
theorem effectOf_borrow (apart : Apart env builder) (notPort : provider ≠ .portFinance)
    (ix : Instruction) (next : Option Instruction) (amount : Nat) (reserve : Option Pubkey)
    (sent : ix.programId = lenderProgram provider)
    (role : loanRole provider ix = .borrow amount reserve) :
    effectOf builder.heliosProgram provider ix next = .borrow amount := by
  rw [effectOf, if_neg (fun same => apart.lender provider (same.symm.trans sent)), role]
  exact if_neg notPort

variable {env builder provider} in
theorem effectOf_repay (apart : Apart env builder) (ix : Instruction) (next : Option Instruction)
    (amount : Nat) (reserve : Option Pubkey) (sent : ix.programId = lenderProgram provider)
    (role : loanRole provider ix = .repay amount reserve) :
    effectOf builder.heliosProgram provider ix next = .repay amount := by
  rw [effectOf, if_neg (fun same => apart.lender provider (same.symm.trans sent)), role]

variable {env builder provider} in
/-- The two ends of a MarginFi loan move nothing. -/
theorem effectOf_end (apart : Apart env builder) (ix : Instruction) (next : Option Instruction)
    (sent : ix.programId = lenderProgram provider) (role : loanRole provider ix = .other) :
    effectOf builder.heliosProgram provider ix next = .neutral :=
  effectOf_quiet builder provider ix next
    (fun same => apart.lender provider (same.symm.trans sent)) role (sent ▸ lender_not_dex provider)

theorem effectOf_quiet_program (apart : Apart env builder) (ix : Instruction)
    (member : ix.programId ∈ systemProgramId :: prologuePrograms) (next : Option Instruction) :
    effectOf builder.heliosProgram provider ix next = .neutral := by
  rcases quiet_programs ix.programId member with ⟨unknown, foreign⟩
  refine effectOf_quiet builder provider ix next ?_
    (loanRole_of_foreign provider ix (foreign provider)) unknown
  intro same
  rcases List.mem_cons.mp member with system | inside
  · exact apart.system (same.symm.trans system)
  · exact apart.prologue (same ▸ inside)

/-- Only a Port loan looks at the instruction behind it. -/
theorem effects_map (notPort : provider ≠ .portFinance) (ixs : List Instruction) :
    effects builder.heliosProgram provider ixs =
      ixs.map (fun ix => effectOf builder.heliosProgram provider ix none) := by
  have alone : ∀ ix next, effectOf builder.heliosProgram provider ix next =
      effectOf builder.heliosProgram provider ix none := by
    intro ix next
    simp only [effectOf, if_neg notPort]
  have appended := effects_append builder provider ixs [] _ (fun ix _ => alone ix)
  rw [List.append_nil] at appended
  exact appended.trans (List.append_nil _)

/-- The work of a loan with two ends around swaps that each have one effect. -/
theorem work_of_bracket (apart : Apart env builder) (notPort : provider ≠ .portFinance)
    (amount : Nat) (bound : amount < 2 ^ 64) (user : Pubkey) (wrapping : Wrapping)
    (precedingIxCount : Nat) (ixs tip : List Instruction)
    (shape : Shape builder amount user provider wrapping precedingIxCount ixs)
    (effect : Effect) (works : effect ≠ .neutral)
    (swaps : ∀ ix ∈ wrapping.swaps,
      effectOf builder.heliosProgram provider ix none = effect)
    (idle : (effects builder.heliosProgram provider tip).filter active = []) :
    (effects builder.heliosProgram provider (ixs ++ tip)).filter active =
      loanWork amount (List.replicate wrapping.swaps.length effect) provider := by
  have middle : (wrapping.swaps.map (fun ix =>
      effectOf builder.heliosProgram provider ix none)).filter active =
        List.replicate wrapping.swaps.length effect := by
    have counts : active effect = true := decide_eq_true works
    rw [List.map_congr_left swaps, List.map_const', List.filter_replicate, if_pos counts]
  have split : (effects builder.heliosProgram provider (ixs ++ tip)).filter active =
      (ixs.map (fun ix => effectOf builder.heliosProgram provider ix none)).filter active := by
    rw [effects_map builder provider notPort, List.map_append, List.filter_append,
      ← effects_map builder provider notPort tip, idle, List.append_nil]
  cases provider with
  | portFinance => exact absurd rfl notPort
  | marginFi =>
      rcases shape with ⟨cfg, authority, others, same⟩
      have begins := effectOf_end apart
        (marginfiBeginIx cfg builder.payer (wrap 64 (precedingIxCount + 2 + wrapping.swaps.length)))
        none (by rw [marginfiBeginIx, lenderProgram]) (loanRole_marginfiBegin cfg builder.payer _)
      have borrows := effectOf_borrow apart notPort
        (marginfiBorrowIx cfg builder.payer user authority amount) none amount (some cfg.bank)
        (by rw [marginfiBorrowIx, lenderProgram])
        (loanRole_marginfiBorrow cfg builder.payer user authority amount bound)
      have ends := effectOf_end apart
        (marginfiEndIx cfg builder.payer others) none (by rw [marginfiEndIx, lenderProgram])
        (loanRole_marginfiEnd cfg builder.payer others)
      rw [split, same, List.map_append, List.map_append, List.filter_append, List.filter_append,
        middle]
      simp only [List.map_cons, List.map_nil, begins, borrows, ends]
      exact List.append_nil _
  | solend =>
      rcases shape with ⟨cfg, authority, same⟩
      have borrows := effectOf_borrow apart notPort
        (solendBorrowIx cfg user authority amount) none amount (some cfg.reserve)
        (by rw [solendBorrowIx, lenderProgram])
        (loanRole_solendBorrow cfg user authority amount bound)
      have repays := effectOf_repay apart
        (solendRepayIx cfg builder.payer user amount (UInt8.ofNat precedingIxCount)) none amount
        (some cfg.reserve) (by rw [solendRepayIx, lenderProgram])
        (loanRole_solendRepay cfg builder.payer user amount _ bound)
      rw [split, same, List.map_append, List.map_append, List.filter_append, List.filter_append,
        middle]
      simp only [List.map_cons, List.map_nil, borrows, repays]
      rfl
  | kamino =>
      rcases shape with ⟨accounts, reserve, _, same⟩
      have borrows := effectOf_borrow apart notPort
        (kaminoBorrowIx wrapping.kaminoBorrowTag accounts amount) none amount
        (kaminoReserve accounts) (by rw [kaminoBorrowIx, lenderProgram])
        (loanRole_kaminoBorrow wrapping accounts amount bound)
      have repays := effectOf_repay apart
        (kaminoRepayIx accounts amount (UInt8.ofNat precedingIxCount)) none amount
        (kaminoReserve accounts) (by rw [kaminoRepayIx, lenderProgram])
        (loanRole_kaminoRepay accounts amount _ bound)
      rw [split, same, List.map_append, List.map_append, List.filter_append, List.filter_append,
        middle]
      simp only [List.map_cons, List.map_nil, borrows, repays]
      rfl

/-- The number of swaps a plan has. -/
def hopCount : TxPlan F → Nat
  | .helios _ route _ _ => route.hops.length
  | .direct _ route _ _ => route.hops.length
  | .jupiter jupiterSwapIxs _ => jupiterSwapIxs.length

/-- The on-chain program is asked for a profit of zero, a DEX for nothing. -/
def swapEffect : TxPlan F → Effect
  | .helios _ _ _ _ => .helios 0
  | _ => .swap

theorem heliosIx_call (route : RouteParams F) (userTokenAccount : Pubkey)
    (cache : PoolStateCache) (tokenPrograms : HashMap Pubkey Pubkey) (heliosIx : Instruction)
    (small : route.borrowAmount < 2 ^ 64) (short : route.hops.length < 2 ^ 32)
    (built : builder.buildHeliosInstruction powf route userTokenAccount cache tokenPrograms =
      .ok heliosIx) :
    heliosIx.programId = builder.heliosProgram ∧ ∃ plan, plan.minProfit = 0 ∧
      HeliosCall.decode heliosIx.data = some (.executeFlashArb route.borrowAmount plan) := by
  rcases heliosIx_of_built powf builder route userTokenAccount cache tokenPrograms heliosIx built
    with ⟨hops, config, remaining, hopsBuilt, shape⟩
  have fits := flashArbArgs_fits powf builder cache tokenPrograms route hops small short hopsBuilt
  have written : heliosIx.data = executeFlashArbDiscriminator ++
      (leBytes 8 route.borrowAmount ++ (planOf (flashArbArgs route hops)).serialize) := by
    rw [shape]
    rfl
  refine ⟨by rw [shape], planOf (flashArbArgs route hops), rfl, ?_⟩
  rw [written]
  exact decode_executeFlashArb route.borrowAmount _ small (planOf_fits _ fits)

/-- Each swap of a plan has the plan's effect. -/
theorem effectOf_wrapping (apart : Apart env builder) (plan : TxPlan F) (wrapping : Wrapping)
    (userTokenAccount : Pubkey) (notJupiter : plan.isJupiter = false)
    (small : plan.borrowAmount < 2 ^ 64) (short : hopCount plan < 2 ^ 32)
    (wraps : Wraps powf builder plan wrapping userTokenAccount) :
    ∀ ix ∈ wrapping.swaps,
      effectOf builder.heliosProgram provider ix none = swapEffect plan := by
  cases plan with
  | helios fees route cache tokenPrograms =>
      rcases wraps with ⟨heliosIx, same, built⟩
      rcases heliosIx_call powf builder route userTokenAccount cache tokenPrograms heliosIx small
        short built with ⟨sent, plan, asked, decoded⟩
      rw [same]
      intro ix member
      rw [List.mem_singleton.mp member, effectOf, if_pos sent, decoded]
      exact congrArg Effect.helios asked
  | direct fees route cache tokenPrograms =>
      rcases wraps with ⟨swapIxs, same, built⟩
      rcases buildDirectHops_each builder cache tokenPrograms route.hops route.borrowAmount swapIxs
        built with ⟨length, each⟩
      rw [same]
      intro ix member
      rcases List.mem_iff_getElem?.mp member with ⟨place, found⟩
      have within : place < route.hops.length := length ▸ (List.getElem?_eq_some_iff.mp found).1
      rcases each place _ (List.getElem?_eq_getElem within) with ⟨other, here, done⟩
      rw [← Option.some.inj (found.symm.trans here)] at done
      exact effectOf_swap env builder provider apart ix none
        (buildDirectHop_program builder cache tokenPrograms _ _ ix done)
  | jupiter jupiterSwapIxs amount => cases notJupiter

/-- A Port loan runs the whole plan in its callback. -/
theorem work_of_port (apart : Apart env builder) (route : RouteParams F)
    (userTokenAccount : Pubkey) (cache : PoolStateCache) (tokenPrograms : HashMap Pubkey Pubkey)
    (heliosIx : Instruction) (small : route.borrowAmount < 2 ^ 64)
    (short : route.hops.length < 2 ^ 32)
    (built : builder.buildHeliosInstruction powf route userTokenAccount cache tokenPrograms =
      .ok heliosIx) (borrowMint : Pubkey) (ixs tip : List Instruction)
    (wrapped : buildPortWrappedInstructions env builder borrowMint route.borrowAmount
      userTokenAccount heliosIx = .ok ixs)
    (idle : (effects builder.heliosProgram .portFinance tip).filter active = []) :
    (effects builder.heliosProgram .portFinance (ixs ++ tip)).filter active =
      [.callback route.borrowAmount 0] := by
  rcases heliosIx_of_built powf builder route userTokenAccount cache tokenPrograms heliosIx built
    with ⟨hops, config, remaining, hopsBuilt, shape⟩
  have fits := flashArbArgs_fits powf builder cache tokenPrograms route hops small short hopsBuilt
  simp only [buildPortWrappedInstructions, bind_eq_ok_iff] at wrapped
  rcases wrapped with ⟨cfg, resolved, authority, _, args, decoded, rest⟩
  have argsAre := decoded_plan route hops heliosIx args (by rw [shape]) fits decoded
  have receiver : cfg.receiverProgram = resolvePortReceiver env := by
    simp only [resolvePortConfig, bind_eq_ok_iff] at resolved
    rcases resolved with ⟨_, _, _, _, _, _, _, _, _, _, _, _, same⟩
    rw [← Except.ok.inj same]
  split at rest
  · cases rest
  · next heliosConfig found =>
      rw [← Except.ok.inj rest]
      have carries : PortFlashReceiverInstruction.tryFromSlice (portCarrierIx cfg args).data =
          some (.carryPlan args.minProfit args.hopAccountCounts args.hopData) :=
        PortFlashReceiverInstruction.tryFromSlice_carryPlan (planOf args)
          (planOf_fits args (argsAre ▸ fits))
      have asked : args.minProfit = 0 := by
        rw [argsAre]
        rfl
      have loan : ∀ accounts, effectOf builder.heliosProgram .portFinance
          (portFlashIx cfg userTokenAccount authority route.borrowAmount accounts)
          (some (portCarrierIx cfg args)) = .callback route.borrowAmount 0 := by
        intro accounts
        have sent : (portFlashIx cfg userTokenAccount authority route.borrowAmount
            accounts).programId = lenderProgram .portFinance := by
          rw [portFlashIx, lenderProgram]
        rw [effectOf, if_neg (fun same => apart.lender .portFinance (same.symm.trans sent)),
          loanRole_portFlash cfg userTokenAccount authority route.borrowAmount accounts small]
        simp only [if_true, Option.bind_some, carries, asked]
      have carrier := effectOf_quiet builder .portFinance (portCarrierIx cfg args) tip.head?
        (fun same => apart.receiver (same.symm.trans receiver))
        (loanRole_of_foreign .portFinance _
          (fun same => apart.receiverLender .portFinance (receiver.symm.trans same)))
        (by rw [portCarrierIx, receiver]; exact apart.receiverDex)
      simp only [List.cons_append, List.nil_append, effects, List.head?_cons, loan, carrier]
      rw [List.filter_cons_of_pos rfl, List.filter_cons_of_neg (by decide), idle]

omit [FloatArith F] in
/-- The outcomes of a loan around one checked call of the on-chain program. -/
theorem lands_checked_work (amount start final : Nat) :
    Lands provider (loanWork amount [.helios 0] provider) start final ↔
      CheckedOutcome provider amount start final := by
  cases provider with
  | marginFi => exact (lands_checked .marginFi amount start final).1
  | portFinance => exact lands_callback .portFinance amount start final
  | solend => exact (lands_checked .solend amount start final).2
  | kamino => exact (lands_checked .kamino amount start final).2

omit [FloatArith F] in
theorem lands_open_work (notPort : provider ≠ .portFinance) (amount start final count : Nat) :
    Lands provider (loanWork amount (List.replicate (count + 1) .swap) provider) start final ↔
      OpenOutcome provider amount final := by
  cases provider with
  | marginFi => exact (lands_open .marginFi amount start final count).1
  | portFinance => exact absurd rfl notPort
  | solend => exact (lands_open .solend amount start final count).2
  | kamino => exact (lands_open .kamino amount start final count).2

/-- What stays of an assembled transaction without the instructions that move
nothing. -/
theorem work_of_tx (apart : Apart env builder) (plan : TxPlan F) (tipIx : Option Instruction)
    (tx : List Instruction) (notJupiter : plan.isJupiter = false)
    (small : plan.borrowAmount < 2 ^ 64) (short : hopCount plan < 2 ^ 32)
    (tips : ∀ ix ∈ tipIx, ix.programId = systemProgramId)
    (done : buildTx powf env builder plan provider tipIx = .ok tx) :
    ∃ wrapping userTokenAccount, Wraps powf builder plan wrapping userTokenAccount ∧
      (provider = .portFinance → ∃ heliosIx, wrapping = .helios heliosIx) ∧
      (effects builder.heliosProgram provider tx).filter active =
        loanWork plan.borrowAmount (List.replicate wrapping.swaps.length (swapEffect plan))
          provider := by
  rcases buildTx_ok powf env builder plan provider tipIx tx done with
    ⟨before, ixs, wrapping, borrowMint, user, same, prologue, wraps, built⟩
  have tip : tipOf plan provider tipIx = tipIx.toList := by simp [tipOf, notJupiter]
  have idle : (effects builder.heliosProgram provider tipIx.toList).filter active = [] := by
    have quiet := effects_quiet builder provider tipIx.toList [] (fun ix member next =>
      effectOf_quiet_program env builder provider apart ix
        (tips ix (Option.mem_toList.mp member) ▸ List.mem_cons_self) next)
    rwa [List.append_nil] at quiet
  have inner : (effects builder.heliosProgram provider tx).filter active =
      (effects builder.heliosProgram provider (ixs ++ tipIx.toList)).filter active := by
    rw [same, tip, List.append_assoc]
    exact effects_quiet builder provider before _ (fun ix member next =>
      effectOf_quiet_program env builder provider apart ix
        (List.mem_cons_of_mem _ (prologue ix member)) next)
  refine ⟨wrapping, user, wraps, ?_, ?_⟩
  · intro port
    cases wrapping with
    | helios heliosIx => exact ⟨heliosIx, rfl⟩
    | direct swapIxs =>
        rw [port] at built
        cases built
  · rw [inner]
    by_cases port : provider = .portFinance
    · subst port
      cases plan with
      | helios fees route cache tokenPrograms =>
          rcases wraps with ⟨heliosIx, wrapped, heliosBuilt⟩
          subst wrapped
          exact work_of_port powf env builder apart route user cache tokenPrograms heliosIx small
            short heliosBuilt borrowMint ixs tipIx.toList built idle
      | direct fees route cache tokenPrograms =>
          rcases wraps with ⟨swapIxs, wrapped, _⟩
          subst wrapped
          cases built
      | jupiter jupiterSwapIxs amount => cases notJupiter
    · have works : swapEffect plan ≠ .neutral := by
        cases plan <;> exact Effect.noConfusion
      exact work_of_bracket env builder provider apart port plan.borrowAmount small user wrapping
        before.length ixs tipIx.toList
        (shape_of_built env builder borrowMint plan.borrowAmount user provider wrapping
          before.length ixs built) (swapEffect plan) works
        (effectOf_wrapping powf env builder provider apart plan wrapping user notJupiter small
          short wraps) idle

/-- The lender's fee is nothing, and the on-chain program checks the balance. -/
def Guarded : TxPlan F → Prop
  | .helios _ route _ _ => fee provider route.borrowAmount = 0
  | _ => False

omit [FloatArith F] in
/-- An assembled route has a hop. -/
theorem hops_of_borrowMint (route : RouteParams F) (borrowMint : Pubkey)
    (found : borrowMintOf route = .ok borrowMint) : 0 < route.hops.length := by
  rw [borrowMintOf] at found
  split at found
  · cases found
  · next hop rest listed =>
      rw [listed]
      exact Nat.succ_pos rest.length

/-- No outcome of a transaction that lands leaves the payer with less than it had,
just when it had nothing, or the on-chain program checks the balance and the loan
is free. The program is asked for a profit of zero, which covers the fee of no
other loan. -/
theorem no_loss_iff (apart : Apart env builder) (plan : TxPlan F) (tipIx : Option Instruction)
    (tx : List Instruction) (notJupiter : plan.isJupiter = false)
    (small : plan.borrowAmount < 2 ^ 64) (short : hopCount plan < 2 ^ 32)
    (tips : ∀ ix ∈ tipIx, ix.programId = systemProgramId)
    (done : buildTx powf env builder plan provider tipIx = .ok tx) (start : Nat) :
    ((∀ final, Lands provider (effects builder.heliosProgram provider tx) start final →
        start ≤ final) ↔ start = 0 ∨ Guarded provider plan) ∧
      ∀ route user cache tokenPrograms heliosIx borrowed args, route.borrowAmount < 2 ^ 64 →
        route.hops.length < 2 ^ 32 →
        builder.buildHeliosInstruction powf route user cache tokenPrograms = .ok heliosIx →
        HeliosCall.decode heliosIx.data = some (.executeFlashArb borrowed args) →
        (fee provider route.borrowAmount ≤ args.minProfit ↔
          fee provider route.borrowAmount = 0) := by
  constructor
  · rcases work_of_tx powf env builder provider apart plan tipIx tx notJupiter small short tips done
      with ⟨wrapping, user, wraps, port, work⟩
    cases plan with
    | helios fees route cache tokenPrograms =>
        rcases wraps with ⟨heliosIx, wrapped, _⟩
        subst wrapped
        have outcomes : ∀ final,
            Lands provider (effects builder.heliosProgram provider tx) start final ↔
              CheckedOutcome provider route.borrowAmount start final := by
          intro final
          rw [← lands_active, work]
          exact lands_checked_work provider route.borrowAmount start final
        simp only [outcomes]
        exact checked_no_loss_iff provider route.borrowAmount start
    | direct fees route cache tokenPrograms =>
        rcases wraps with ⟨swapIxs, wrapped, swapsBuilt⟩
        subst wrapped
        have notPort : provider ≠ .portFinance := by
          intro same
          rcases port same with ⟨heliosIx, absurd⟩
          cases absurd
        simp only [buildTx, buildDirectSwapTx, bind_eq_ok_iff] at done
        rcases done with ⟨borrowMint, found, _⟩
        have some_hop := hops_of_borrowMint route borrowMint found
        have length := (buildDirectHops_each builder cache tokenPrograms route.hops
          route.borrowAmount swapIxs swapsBuilt).1
        rcases Nat.exists_eq_succ_of_ne_zero (Nat.ne_of_gt (length ▸ some_hop)) with ⟨count, counts⟩
        have outcomes : ∀ final,
            Lands provider (effects builder.heliosProgram provider tx) start final ↔
              OpenOutcome provider route.borrowAmount final := by
          intro final
          rw [← lands_active, work, Wrapping.swaps, counts]
          exact lands_open_work provider notPort route.borrowAmount start final count
        simp only [outcomes, Guarded, or_false]
        exact open_no_loss_iff provider route.borrowAmount start
    | jupiter jupiterSwapIxs amount => cases notJupiter
  · intro route user cache tokenPrograms heliosIx borrowed args fits few built decoded
    rcases heliosIx_call powf builder route user cache tokenPrograms heliosIx fits few built with
      ⟨_, plan, asked, read⟩
    rw [read] at decoded
    cases decoded
    rw [asked]
    exact Nat.le_zero

end Effects

/-! A Solend loan of one SOL around the two Raydium hops. -/

section Sample

open Executability

def loanRoute : RouteParams Double := { sampleRoute with borrowAmount := 10 ^ 9 }

def loanPlan : TxPlan Double := .helios ⟨⟨10⟩, 1000, 5000⟩ loanRoute sampleCache HashMap.empty

def loanTx : List Instruction :=
  (buildTx firstArgument sampleEnv constantBuilder loanPlan .solend none).toOption.getD []

theorem loanTx_built : buildTx firstArgument sampleEnv constantBuilder loanPlan .solend none =
    .ok loanTx :=
  eq_ok_of_isSome _ [] (by decide +kernel)

theorem sample_receiver : resolvePortReceiver sampleEnv = .ofNat 40 := by
  decide +kernel

theorem ne_of_number (key other : Pubkey) (number : Nat) (named : other.toNat = number)
    (differs : key.toNat ≠ number) : key ≠ other := by
  intro same
  exact differs (same ▸ named)

theorem toNat_program : constantBuilder.heliosProgram.toNat = 8 := by
  decide +kernel

theorem toNat_receiver : (Pubkey.ofNat 40).toNat = 40 := by
  decide +kernel

theorem sample_apart : Apart sampleEnv constantBuilder where
  prologue := by
    intro member
    rcases List.mem_pair.mp member with same | same
    · exact ne_of_number _ _ _ toNat_computeBudget (by rw [toNat_program]; decide) same
    · exact ne_of_number _ _ _ toNat_associatedToken (by rw [toNat_program]; decide) same
  system := by decide +kernel
  lender provider := by
    refine ne_of_number _ _ _ (toNat_lenderProgram provider) ?_
    rw [toNat_program]
    cases provider <;> decide
  dex := by
    refine fromProgramId_of_number _ 8 toNat_program ?_
    intro dex _
    cases dex <;> decide
  receiver := by
    rw [sample_receiver]
    decide +kernel
  receiverLender provider := by
    rw [sample_receiver]
    refine ne_of_number _ _ _ (toNat_lenderProgram provider) ?_
    rw [toNat_receiver]
    cases provider <;> decide
  receiverDex := by
    rw [sample_receiver]
    refine fromProgramId_of_number _ 40 toNat_receiver ?_
    intro dex _
    cases dex <;> decide

/-- A swap that pays back what was borrowed and three thousandths more passes the
check and leaves nothing of the three: the fee comes out of what was there before. -/
theorem loan_loses :
    ¬ ∀ plan provider tipIx tx, plan.isJupiter = false →
      (∀ ix ∈ tipIx, ix.programId = systemProgramId) →
      buildTx firstArgument sampleEnv constantBuilder plan provider tipIx = .ok tx →
      ∀ start final, Lands provider (effects constantBuilder.heliosProgram provider tx) start
        final → start ≤ final := by
  intro law
  have kept := law loanPlan .solend none loanTx rfl (fun _ member => nomatch member) loanTx_built
    5000000 2000000
  have work := work_of_tx firstArgument sampleEnv constantBuilder .solend sample_apart loanPlan none
    loanTx rfl (by decide) (by decide) (fun _ member => nomatch member) loanTx_built
  rcases work with ⟨wrapping, user, ⟨heliosIx, wrapped, _⟩, _, same⟩
  subst wrapped
  have lands : Lands .solend (effects constantBuilder.heliosProgram .solend loanTx) 5000000
      2000000 := by
    rw [← lands_active, same]
    exact (lands_checked_work .solend (10 ^ 9) 5000000 2000000).mpr
      ⟨1005000000, by decide, by decide, by decide⟩
  exact absurd (kept lands) (by decide)

theorem loan_loses_iff :
    ((∀ final, Lands .solend (effects constantBuilder.heliosProgram .solend loanTx) 5000000 final →
        5000000 ≤ final) ↔ 5000000 = 0 ∨ Guarded .solend loanPlan) ∧
      ∀ route user cache tokenPrograms heliosIx borrowed args, route.borrowAmount < 2 ^ 64 →
        route.hops.length < 2 ^ 32 →
        constantBuilder.buildHeliosInstruction firstArgument route user cache tokenPrograms =
          .ok heliosIx →
        HeliosCall.decode heliosIx.data = some (.executeFlashArb borrowed args) →
        (fee .solend route.borrowAmount ≤ args.minProfit ↔ fee .solend route.borrowAmount = 0) :=
  no_loss_iff firstArgument sampleEnv constantBuilder .solend sample_apart loanPlan none loanTx rfl
    (by decide) (by decide) (fun _ member => nomatch member) loanTx_built 5000000

end Sample

end Helios.Landing
