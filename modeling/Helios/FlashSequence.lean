import Helios.DirectSwap
import Helios.Executability

/-! What the loan wrappers and the assembled transactions look like: where the
swaps stand, which instruction opens and closes the loan, and the positions the
lenders' data name. -/

namespace Helios.FlashSequence

open Fallible FlashLoans Machine TxBuilder

/-- What a loan is wrapped around. -/
inductive Wrapping where
  | helios (heliosIx : Instruction)
  | direct (swapIxs : List Instruction)

def Wrapping.swaps : Wrapping → List Instruction
  | .helios heliosIx => [heliosIx]
  | .direct swapIxs => swapIxs

/-- The tag each Kamino wrapper sends for its borrow; the two differ. -/
def Wrapping.kaminoBorrowTag : Wrapping → List UInt8
  | .helios _ => kaminoBorrowDiscriminator
  | .direct _ => kaminoDirectBorrowDiscriminator

/-- The reserve in the two account layouts a Kamino loan is sent with. -/
def kaminoReserve (accounts : List AccountMeta) : Option Pubkey :=
  accounts[if accounts.length = 6 then 0 else 3]?.map AccountMeta.pubkey

section Wrappers

variable (env : FlashEnv) (builder : TxBuilder) (borrowMint : Pubkey) (borrowAmount : Nat)
  (userTokenAccount : Pubkey)

def buildWrapped (provider : FlashProvider) (wrapping : Wrapping) (precedingIxCount : Nat) :
    Except FlashError (List Instruction) :=
  match wrapping with
  | .helios heliosIx => buildWrappedInstructions env builder borrowMint borrowAmount
      userTokenAccount provider heliosIx precedingIxCount
  | .direct swapIxs => buildWrappedInstructionsDirect env builder borrowMint borrowAmount
      userTokenAccount provider swapIxs precedingIxCount

/-- The callback accounts of a Port loan. -/
def portCallback (payer : Pubkey) (heliosIx : Instruction) (heliosConfig : AccountMeta) :
    List AccountMeta :=
  [.newReadonly payer true, .newReadonly heliosIx.programId false,
    .newReadonly heliosConfig.pubkey false, .newReadonly instructionsSysvarId false] ++
    heliosIx.accounts.drop 4

/-- The list each lender's wrapper returns. -/
def Shape (provider : FlashProvider) (wrapping : Wrapping) (precedingIxCount : Nat)
    (ixs : List Instruction) : Prop :=
  match provider with
  | .marginFi => ∃ cfg authority others, ixs =
      [marginfiBeginIx cfg builder.payer
          (wrap 64 (precedingIxCount + 2 + wrapping.swaps.length)),
        marginfiBorrowIx cfg builder.payer userTokenAccount authority borrowAmount] ++
        wrapping.swaps ++ [marginfiEndIx cfg builder.payer others]
  | .solend => ∃ cfg authority, ixs =
      [solendBorrowIx cfg userTokenAccount authority borrowAmount] ++ wrapping.swaps ++
        [solendRepayIx cfg builder.payer userTokenAccount borrowAmount
          (UInt8.ofNat precedingIxCount)]
  | .kamino => ∃ accounts reserve, kaminoReserve accounts = some reserve ∧ ixs =
      [kaminoBorrowIx wrapping.kaminoBorrowTag accounts borrowAmount] ++ wrapping.swaps ++
        [kaminoRepayIx accounts borrowAmount (UInt8.ofNat precedingIxCount)]
  | .portFinance => ∃ heliosIx cfg authority plan heliosConfig, wrapping = .helios heliosIx ∧
      decodeHeliosPlan heliosIx = .ok plan ∧ heliosIx.accounts[2]? = some heliosConfig ∧
      ixs = [portFlashIx cfg userTokenAccount authority borrowAmount
          (portCallback builder.payer heliosIx heliosConfig),
        portCarrierIx cfg plan]

theorem shape_helios (provider : FlashProvider) (heliosIx : Instruction) (precedingIxCount : Nat)
    (ixs : List Instruction)
    (done : buildWrappedInstructions env builder borrowMint borrowAmount userTokenAccount provider
      heliosIx precedingIxCount = .ok ixs) :
    Shape builder borrowAmount userTokenAccount provider (.helios heliosIx) precedingIxCount
      ixs := by
  cases provider with
  | marginFi =>
      simp only [buildWrappedInstructions, buildMarginfiWrappedInstructions, bind_eq_ok_iff] at done
      rcases done with ⟨cfg, _, authority, _, banks, _, same⟩
      cases same
      exact ⟨cfg, authority, composeMarginfiHealthAccounts banks, rfl⟩
  | solend =>
      simp only [buildWrappedInstructions, buildSolendWrappedInstructions, bind_eq_ok_iff] at done
      rcases done with ⟨cfg, _, authority, _, same⟩
      cases same
      exact ⟨cfg, authority, rfl⟩
  | kamino =>
      simp only [buildWrappedInstructions, buildKaminoWrappedInstructions, bind_eq_ok_iff] at done
      rcases done with ⟨cfg, _, authority, _, same⟩
      cases same
      exact ⟨kaminoAccounts cfg builder.payer borrowMint userTokenAccount authority, cfg.reserve, rfl,
        rfl⟩
  | portFinance =>
      simp only [buildWrappedInstructions, buildPortWrappedInstructions, bind_eq_ok_iff] at done
      rcases done with ⟨cfg, _, authority, _, plan, decoded, rest⟩
      cases found : heliosIx.accounts[2]? with
      | none =>
          rw [found] at rest
          cases rest
      | some heliosConfig =>
          rw [found] at rest
          cases rest
          exact ⟨heliosIx, cfg, authority, plan, heliosConfig, rfl, decoded, found, rfl⟩

theorem shape_direct (provider : FlashProvider) (swapIxs : List Instruction)
    (precedingIxCount : Nat) (ixs : List Instruction)
    (done : buildWrappedInstructionsDirect env builder borrowMint borrowAmount userTokenAccount
      provider swapIxs precedingIxCount = .ok ixs) :
    Shape builder borrowAmount userTokenAccount provider (.direct swapIxs) precedingIxCount
      ixs := by
  cases provider with
  | marginFi =>
      simp only [buildWrappedInstructionsDirect, bind_eq_ok_iff] at done
      rcases done with ⟨cfg, _, authority, _, same⟩
      cases same
      exact ⟨cfg, authority, [instructionsSysvarId], rfl⟩
  | kamino =>
      simp only [buildWrappedInstructionsDirect, bind_eq_ok_iff] at done
      rcases done with ⟨cfg, _, same⟩
      cases same
      exact ⟨kaminoDirectAccounts cfg userTokenAccount, cfg.reserve, rfl, rfl⟩
  | solend => cases done
  | portFinance => cases done

theorem shape_of_built (provider : FlashProvider) (wrapping : Wrapping) (precedingIxCount : Nat)
    (ixs : List Instruction)
    (done : buildWrapped env builder borrowMint borrowAmount userTokenAccount provider wrapping
      precedingIxCount = .ok ixs) :
    Shape builder borrowAmount userTokenAccount provider wrapping precedingIxCount ixs := by
  cases wrapping with
  | helios heliosIx =>
      exact shape_helios env builder borrowMint borrowAmount userTokenAccount provider heliosIx
        precedingIxCount ixs done
  | direct swapIxs =>
      exact shape_direct env builder borrowMint borrowAmount userTokenAccount provider swapIxs
        precedingIxCount ixs done

end Wrappers

/-! Positions named in the lenders' data. -/

/-- The `end_index` of a MarginFi start instruction. -/
def endIndexOf (data : List UInt8) : Nat := ofLeBytes ((data.drop 8).take 8)

/-- The borrow index of a repayment, behind the tag and the amount. -/
def borrowIndexOf (tagLength : Nat) (data : List UInt8) : Option Nat :=
  data[tagLength + 8]?.map UInt8.toNat

theorem endIndexOf_start (endIndex : Nat) (bound : endIndex < 2 ^ 64) :
    endIndexOf (marginfiStartFlashloanData endIndex) = endIndex := by
  have skipped : (marginfiStartFlashloanData endIndex).drop 8 = leBytes 8 endIndex := by
    rw [marginfiStartFlashloanData]
    exact List.drop_left' rfl
  rw [endIndexOf, skipped, List.take_of_length_le (Nat.le_of_eq (leBytes_length 8 endIndex))]
  exact ofLeBytes_leBytes 8 endIndex (lt_of_lt_of_eq bound (by norm_num))

theorem borrowIndexOf_repay (tag : List UInt8) (amount : Nat) (index : UInt8) :
    borrowIndexOf tag.length (tag ++ (leBytes 8 amount ++ [index])) = some index.toNat := by
  have place : (tag ++ (leBytes 8 amount ++ [index]))[tag.length + 8]? = some index := by
    rw [List.getElem?_append_right (by omega), List.getElem?_append_right (by simp)]
    simp
  rw [borrowIndexOf, place]
  rfl

theorem toNat_ofNat_of_lt (n : Nat) (bound : n < 2 ^ 8) : (UInt8.ofNat n).toNat = n := by
  rw [UInt8.toNat_ofNat']
  exact Nat.mod_eq_of_lt bound

/-- The instruction the lender's data must name, by its place in the whole list. -/
def counterpart (provider : FlashProvider) (precedingIxCount swapCount : Nat) : Nat :=
  match provider with
  | .marginFi => precedingIxCount + 2 + swapCount
  | _ => precedingIxCount

def indexBits : FlashProvider → Nat
  | .marginFi => 64
  | _ => 8

/-- In the whole list, the loan's opening stands at `start`, its closing behind the
swaps, and the data that names a place names the right one. -/
def IndexPoints (payer : Pubkey) (borrowAmount : Nat) (provider : FlashProvider)
    (wrapping : Wrapping) (start : Nat) (final : List Instruction) : Prop :=
  match provider with
  | .marginFi => ∃ beginIx cfg others,
      final[start]? = some beginIx ∧ beginIx.programId = marginfiProgramId ∧
      beginIx.data.take 8 = [14, 131, 33, 220, 81, 186, 180, 107] ∧
      final[endIndexOf beginIx.data]? = some (marginfiEndIx cfg payer others) ∧
      endIndexOf beginIx.data = start + 2 + wrapping.swaps.length
  | .solend => ∃ cfg authority userTokenAccount repayIx,
      final[start + 1 + wrapping.swaps.length]? = some repayIx ∧
      repayIx.programId = solendProgramId ∧ repayIx.data.head? = some 20 ∧
      ∃ index, borrowIndexOf 1 repayIx.data = some index ∧
        final[index]? = some (solendBorrowIx cfg userTokenAccount authority borrowAmount)
  | .kamino => ∃ accounts repayIx,
      final[start + 1 + wrapping.swaps.length]? = some repayIx ∧
      repayIx.programId = kaminoProgramId ∧ repayIx.data.take 8 = kaminoRepayDiscriminator ∧
      ∃ index, borrowIndexOf 8 repayIx.data = some index ∧
        final[index]? = some (kaminoBorrowIx wrapping.kaminoBorrowTag accounts borrowAmount)
  | .portFinance => True

theorem getElem?_inside (before ixs after : List Instruction) (place : Nat) (ix : Instruction)
    (found : ixs[place]? = some ix) :
    (before ++ ixs ++ after)[before.length + place]? = some ix := by
  have inside : place < ixs.length := (List.getElem?_eq_some_iff.mp found).1
  rw [List.append_assoc, List.getElem?_append_right (by omega), Nat.add_sub_cancel_left,
    List.getElem?_append_left inside]
  exact found

theorem getElem?_closing (opening swaps : List Instruction) (closing : Instruction) :
    (opening ++ swaps ++ [closing])[opening.length + swaps.length]? = some closing := by
  rw [← List.length_append, List.getElem?_concat_length]

theorem indexPoints_of_shape (builder : TxBuilder) (borrowAmount : Nat)
    (userTokenAccount : Pubkey) (provider : FlashProvider) (wrapping : Wrapping)
    (before ixs after : List Instruction)
    (shape : Shape builder borrowAmount userTokenAccount provider wrapping before.length ixs)
    (fits : counterpart provider before.length wrapping.swaps.length < 2 ^ indexBits provider) :
    IndexPoints builder.payer borrowAmount provider wrapping before.length
      (before ++ ixs ++ after) := by
  cases provider with
  | marginFi =>
      rcases shape with ⟨cfg, authority, others, same⟩
      have named : endIndexOf (marginfiBeginIx cfg builder.payer
          (wrap 64 (before.length + 2 + wrapping.swaps.length))).data =
            before.length + 2 + wrapping.swaps.length := by
        have bound : before.length + 2 + wrapping.swaps.length < 2 ^ 64 := fits
        rw [wrap_of_lt 64 _ bound]
        exact endIndexOf_start _ bound
      refine ⟨marginfiBeginIx cfg builder.payer
        (wrap 64 (before.length + 2 + wrapping.swaps.length)), cfg, others, ?_, rfl, rfl, ?_, named⟩
      · exact getElem?_inside before ixs after 0 _ (by rw [same]; rfl)
      · rw [named, Nat.add_assoc]
        apply getElem?_inside
        rw [same]
        exact getElem?_closing _ _ _
  | solend =>
      rcases shape with ⟨cfg, authority, same⟩
      refine ⟨cfg, authority, userTokenAccount, solendRepayIx cfg builder.payer userTokenAccount
        borrowAmount (UInt8.ofNat before.length), ?_, rfl, rfl, before.length, ?_, ?_⟩
      · rw [Nat.add_assoc]
        apply getElem?_inside
        rw [same]
        exact getElem?_closing _ _ _
      · have small : before.length < 2 ^ 8 := fits
        have read := borrowIndexOf_repay [20] borrowAmount (UInt8.ofNat before.length)
        rw [toNat_ofNat_of_lt _ small] at read
        exact read
      · exact getElem?_inside before ixs after 0 _ (by rw [same]; rfl)
  | kamino =>
      rcases shape with ⟨accounts, _, _, same⟩
      refine ⟨accounts, kaminoRepayIx accounts borrowAmount (UInt8.ofNat before.length), ?_, rfl,
        rfl, before.length, ?_, ?_⟩
      · rw [Nat.add_assoc]
        apply getElem?_inside
        rw [same]
        exact getElem?_closing _ _ _
      · have small : before.length < 2 ^ 8 := fits
        have read := borrowIndexOf_repay kaminoRepayDiscriminator borrowAmount
          (UInt8.ofNat before.length)
        rw [toNat_ofNat_of_lt _ small] at read
        exact read
      · exact getElem?_inside before ixs after 0 _ (by rw [same]; rfl)
  | portFinance => trivial

/-! The three ways a transaction is assembled. -/

/-- What a transaction is assembled from: a route run by the on-chain program, a
route of direct swaps, or swaps found elsewhere. -/
inductive TxPlan (F : Type) where
  | helios (fees : PriorityFees F) (route : RouteParams F) (cache : PoolStateCache)
      (tokenPrograms : HashMap Pubkey Pubkey)
  | direct (fees : PriorityFees F) (route : RouteParams F) (cache : PoolStateCache)
      (tokenPrograms : HashMap Pubkey Pubkey)
  | jupiter (jupiterSwapIxs : List Instruction) (borrowAmount : Nat)

section Transactions

variable {F : Type} [FloatArith F] (powf : F → F → F) (env : FlashEnv) (builder : TxBuilder)

def buildTx (plan : TxPlan F) (provider : FlashProvider) (tipIx : Option Instruction) :
    Except TxError (List Instruction) :=
  match plan with
  | .helios fees route cache tokenPrograms =>
      builder.buildInnerCached powf env fees route provider cache tipIx tokenPrograms
  | .direct fees route cache tokenPrograms =>
      builder.buildDirectSwapTx env fees route provider cache tipIx tokenPrograms
  | .jupiter jupiterSwapIxs borrowAmount =>
      builder.buildJupiterFlashTx env jupiterSwapIxs borrowAmount provider tipIx

def TxPlan.borrowAmount : TxPlan F → Nat
  | .helios _ route _ _ => route.borrowAmount
  | .direct _ route _ _ => route.borrowAmount
  | .jupiter _ amount => amount

def TxPlan.isJupiter : TxPlan F → Bool
  | .jupiter _ _ => true
  | _ => false

/-- The tip that really goes behind the loan. -/
def tipOf (plan : TxPlan F) (provider : FlashProvider) (tipIx : Option Instruction) :
    List Instruction :=
  if plan.isJupiter ∧ provider = .kamino then [] else tipIx.toList

/-- How a wrapping comes from the plan. -/
def Wraps (plan : TxPlan F) (wrapping : Wrapping) (userTokenAccount : Pubkey) : Prop :=
  match plan with
  | .helios _ route cache tokenPrograms => ∃ heliosIx, wrapping = .helios heliosIx ∧
      builder.buildHeliosInstruction powf route userTokenAccount cache tokenPrograms = .ok heliosIx
  | .direct _ route cache tokenPrograms => ∃ swapIxs, wrapping = .direct swapIxs ∧
      builder.buildDirectHops cache tokenPrograms route.borrowAmount route.hops = .ok swapIxs
  | .jupiter jupiterSwapIxs _ => wrapping = .direct jupiterSwapIxs

theorem mapError_eq_ok_iff {ε δ α : Type} (change : ε → δ) (result : Except ε α) (value : α) :
    result.mapError change = .ok value ↔ result = .ok value := by
  cases result with
  | error failed => simp [Except.mapError]
  | ok held => simp [Except.mapError]

/-- The programs called in front of a loan. -/
def prologuePrograms : List Pubkey := [computeBudgetProgramId, associatedTokenProgramId]

theorem computeBudget_mem : computeBudgetProgramId ∈ prologuePrograms := List.mem_cons_self

theorem associatedToken_mem : associatedTokenProgramId ∈ prologuePrograms :=
  List.mem_cons_of_mem computeBudgetProgramId List.mem_cons_self

omit [FloatArith F] in
theorem atas_prologue (route : RouteParams F) (tokenPrograms : HashMap Pubkey Pubkey)
    (atas : List Instruction)
    (done : builder.buildAtaSetupInstructions route tokenPrograms = .ok atas) :
    ∀ ix ∈ atas, ix.programId ∈ prologuePrograms := by
  intro ix member
  rcases mapM_outputs _ _ atas done ix member with ⟨mint, _, built⟩
  simp only [buildCreateAtaIdempotentIx, bind_eq_ok_iff] at built
  rcases built with ⟨ata, _, same⟩
  rw [← Except.ok.inj same]
  exact associatedToken_mem

theorem computeBudget_prologue (fees : PriorityFees F) (route : RouteParams F) (cuLimit : Nat)
    (atas : List Instruction) (each : ∀ ix ∈ atas, ix.programId ∈ prologuePrograms) :
    ∀ ix ∈ computeBudget fees route cuLimit ++ atas, ix.programId ∈ prologuePrograms := by
  intro ix member
  rcases List.mem_append.mp member with budget | ata
  · rcases List.mem_pair.mp budget with same | same
    · rw [same]
      exact computeBudget_mem
    · rw [same]
      exact computeBudget_mem
  · exact each ix ata

/-- Every assembled transaction is a prologue, the loan built for just that
prologue, and the tip. -/
theorem buildTx_ok (plan : TxPlan F) (provider : FlashProvider) (tipIx : Option Instruction)
    (tx : List Instruction) (done : buildTx powf env builder plan provider tipIx = .ok tx) :
    ∃ before ixs wrapping borrowMint userTokenAccount,
      tx = before ++ ixs ++ tipOf plan provider tipIx ∧
      (∀ ix ∈ before, ix.programId ∈ prologuePrograms) ∧
      Wraps powf builder plan wrapping userTokenAccount ∧
      buildWrapped env builder borrowMint plan.borrowAmount userTokenAccount provider wrapping
        before.length = .ok ixs := by
  cases plan with
  | helios fees route cache tokenPrograms =>
      simp only [buildTx, buildInnerCached, liftBuild, liftFlash, bind_eq_ok_iff,
        mapError_eq_ok_iff] at done
      rcases done with ⟨borrowMint, _, user, _, heliosIx, built, atas, listed, ixs, wrapped, same⟩
      cases same
      refine ⟨_, ixs, .helios heliosIx, borrowMint, user, ?_, ?_, ⟨heliosIx, rfl, built⟩, wrapped⟩
      · simp [tipOf, TxPlan.isJupiter]
      · exact computeBudget_prologue fees route 400000 atas
          (atas_prologue builder route tokenPrograms atas listed)
  | direct fees route cache tokenPrograms =>
      simp only [buildTx, buildDirectSwapTx, liftBuild, liftFlash, bind_eq_ok_iff,
        mapError_eq_ok_iff] at done
      rcases done with ⟨borrowMint, _, user, _, atas, listed, swapIxs, built, ixs, wrapped, same⟩
      cases same
      refine ⟨_, ixs, .direct swapIxs, borrowMint, user, ?_, ?_, ⟨swapIxs, rfl, built⟩, wrapped⟩
      · simp [tipOf, TxPlan.isJupiter]
      · exact computeBudget_prologue fees route 250000 atas
          (atas_prologue builder route tokenPrograms atas listed)
  | jupiter jupiterSwapIxs borrowAmount =>
      simp only [buildTx, buildJupiterFlashTx, liftBuild, liftFlash, bind_eq_ok_iff,
        mapError_eq_ok_iff] at done
      rcases done with ⟨user, _, ixs, wrapped, same⟩
      cases same
      refine ⟨_, ixs, .direct jupiterSwapIxs, wsol, user, ?_, ?_, rfl, wrapped⟩
      · by_cases kamino : provider = .kamino
        · simp [tipOf, TxPlan.isJupiter, kamino]
        · simp [tipOf, TxPlan.isJupiter, kamino]
      · intro ix member
        rcases List.mem_pair.mp member with same | same
        · rw [same]
          exact computeBudget_mem
        · rw [same]
          exact computeBudget_mem

/-- The place each lender's data names is the place of its counterpart, in the list
the wrapper stands in and in every assembled transaction. -/
theorem embedded_index_points :
    (∀ borrowMint borrowAmount userTokenAccount provider wrapping before ixs after,
      buildWrapped env builder borrowMint borrowAmount userTokenAccount provider wrapping
        before.length = .ok ixs →
      counterpart provider before.length wrapping.swaps.length < 2 ^ indexBits provider →
      IndexPoints builder.payer borrowAmount provider wrapping before.length
        (before ++ ixs ++ after)) ∧
    ∀ (plan : TxPlan F) provider tipIx tx,
      buildTx powf env builder plan provider tipIx = .ok tx →
      ∃ wrapping userTokenAccount start, Wraps powf builder plan wrapping userTokenAccount ∧
        (counterpart provider start wrapping.swaps.length < 2 ^ indexBits provider →
          IndexPoints builder.payer plan.borrowAmount provider wrapping start tx) := by
  constructor
  · intro borrowMint borrowAmount userTokenAccount provider wrapping before ixs after built fits
    exact indexPoints_of_shape builder borrowAmount userTokenAccount provider wrapping before ixs
      after (shape_of_built env builder borrowMint borrowAmount userTokenAccount provider wrapping
        before.length ixs built) fits
  · intro plan provider tipIx tx done
    rcases buildTx_ok powf env builder plan provider tipIx tx done with
      ⟨before, ixs, wrapping, borrowMint, userTokenAccount, same, _, wraps, built⟩
    refine ⟨wrapping, userTokenAccount, before.length, wraps, ?_⟩
    intro fits
    rw [same]
    exact indexPoints_of_shape builder plan.borrowAmount userTokenAccount provider wrapping before
      ixs _ (shape_of_built env builder borrowMint plan.borrowAmount userTokenAccount provider
        wrapping before.length ixs built) fits

end Transactions

/-! Kamino's program wants its repayment last. -/

def isKaminoRepay (ix : Instruction) : Bool :=
  decide (ix.programId = kaminoProgramId ∧ ix.data.take 8 = kaminoRepayDiscriminator)

def repayLast (tx : List Instruction) : Bool := tx.getLast?.any isKaminoRepay

theorem isKaminoRepay_repay (accounts : List AccountMeta) (borrowAmount : Nat)
    (borrowIxIndex : UInt8) :
    isKaminoRepay (kaminoRepayIx accounts borrowAmount borrowIxIndex) = true := by
  rw [isKaminoRepay, decide_eq_true_iff, kaminoRepayIx]
  exact ⟨rfl, List.take_left' rfl⟩

section Kamino

variable {F : Type} [FloatArith F] (powf : F → F → F) (env : FlashEnv) (builder : TxBuilder)

/-- The Jupiter path drops the tip of a Kamino loan; the two others put it behind
the repayment. -/
theorem kamino_repay_last_iff (plan : TxPlan F) (tipIx : Option Instruction)
    (tx : List Instruction) (done : buildTx powf env builder plan .kamino tipIx = .ok tx) :
    repayLast tx = true ↔ plan.isJupiter = true ∨ tipIx.all isKaminoRepay = true := by
  rcases buildTx_ok powf env builder plan .kamino tipIx tx done with
    ⟨before, ixs, wrapping, borrowMint, userTokenAccount, same, _, _, built⟩
  rcases shape_of_built env builder borrowMint plan.borrowAmount userTokenAccount .kamino wrapping
    before.length ixs built with ⟨accounts, _, _, shape⟩
  have loanLast : ∀ front, (front ++ ixs).getLast? =
      some (kaminoRepayIx accounts plan.borrowAmount (UInt8.ofNat before.length)) := by
    intro front
    rw [shape, ← List.append_assoc, List.getLast?_concat]
  have repay := isKaminoRepay_repay accounts plan.borrowAmount (UInt8.ofNat before.length)
  cases jupiter : plan.isJupiter with
  | true =>
      have noTip : tipOf plan .kamino tipIx = [] := by simp [tipOf, jupiter]
      rw [same, noTip, List.append_nil, repayLast, loanLast, Option.any_some]
      exact iff_of_true repay (Or.inl rfl)
  | false =>
      have tip : tipOf plan .kamino tipIx = tipIx.toList := by simp [tipOf, jupiter]
      rw [same, tip, repayLast]
      cases tipIx with
      | none =>
          rw [Option.toList_none, List.append_nil, loanLast, Option.any_some]
          exact iff_of_true repay (Or.inr rfl)
      | some tipIx =>
          rw [Option.toList_some, List.getLast?_concat]
          simp

end Kamino

/-! What a wrapped list borrows and repays. -/

inductive LoanRole where
  | borrow (amount : Nat) (reserve : Option Pubkey)
  | repay (amount : Nat) (reserve : Option Pubkey)
  | other
  deriving DecidableEq

def amountAt (place : Nat) (data : List UInt8) : Nat := ofLeBytes ((data.drop place).take 8)

def accountAt (place : Nat) (ix : Instruction) : Option Pubkey :=
  ix.accounts[place]?.map AccountMeta.pubkey

/-- The part an instruction plays in the loan of a lender. -/
def loanRole (provider : FlashProvider) (ix : Instruction) : LoanRole :=
  match provider with
  | .marginFi =>
      if ix.programId = marginfiProgramId ∧ ix.data.take 8 = [4, 126, 116, 53, 48, 5, 212, 31] then
        .borrow (amountAt 8 ix.data) (accountAt 3 ix)
      else .other
  | .solend =>
      if ix.programId = solendProgramId ∧ ix.data.head? = some 19 then
        .borrow (amountAt 1 ix.data) (accountAt 2 ix)
      else if ix.programId = solendProgramId ∧ ix.data.head? = some 20 then
        .repay (amountAt 1 ix.data) (accountAt 4 ix)
      else .other
  | .kamino =>
      if ix.programId = kaminoProgramId ∧ (ix.data.take 8 = kaminoBorrowDiscriminator ∨
          ix.data.take 8 = kaminoDirectBorrowDiscriminator) then
        .borrow (amountAt 8 ix.data) (kaminoReserve ix.accounts)
      else if isKaminoRepay ix then .repay (amountAt 8 ix.data) (kaminoReserve ix.accounts)
      else .other
  | .portFinance =>
      if ix.programId = portProgramId ∧ ix.data.head? = some 13 then
        .borrow (amountAt 1 ix.data) (accountAt 2 ix)
      else .other

def LoanRole.isBorrow : LoanRole → Bool
  | .borrow _ _ => true
  | _ => false

/-- One borrow of the amount before the swaps and none after, and behind the swaps a
repayment of no less to the same reserve. -/
def RepaysWhatItBorrows (provider : FlashProvider) (borrowAmount : Nat)
    (swaps ixs : List Instruction) : Prop :=
  ∃ front back reserve, ixs = front ++ swaps ++ back ∧
    (front.map (loanRole provider)).filter LoanRole.isBorrow =
      [.borrow borrowAmount (some reserve)] ∧
    (back.map (loanRole provider)).filter LoanRole.isBorrow = [] ∧
    ∃ repaid, borrowAmount ≤ repaid ∧ .repay repaid (some reserve) ∈ back.map (loanRole provider)

theorem amountAt_of_tag (tag rest : List UInt8) (amount : Nat) (bound : amount < 2 ^ 64) :
    amountAt tag.length (tag ++ (leBytes 8 amount ++ rest)) = amount :=
  ofLeBytes_at tag rest amount bound

theorem loanRole_solendBorrow (cfg : SolendConfig) (user authority : Pubkey) (amount : Nat)
    (bound : amount < 2 ^ 64) :
    loanRole .solend (solendBorrowIx cfg user authority amount) =
      .borrow amount (some cfg.reserve) := by
  have read := amountAt_of_tag [19] [] amount bound
  rw [List.append_nil] at read
  rw [loanRole, if_pos ⟨rfl, rfl⟩]
  exact congrArg (LoanRole.borrow · (some cfg.reserve)) read

theorem loanRole_solendRepay (cfg : SolendConfig) (payer user : Pubkey) (amount : Nat)
    (index : UInt8) (bound : amount < 2 ^ 64) :
    loanRole .solend (solendRepayIx cfg payer user amount index) =
      .repay amount (some cfg.reserve) := by
  have tag : ¬ ((solendRepayIx cfg payer user amount index).programId = solendProgramId ∧
      (solendRepayIx cfg payer user amount index).data.head? = some 19) := by
    intro ⟨_, head⟩
    exact absurd (Option.some.inj head) (by decide)
  rw [loanRole, if_neg tag, if_pos ⟨rfl, rfl⟩]
  exact congrArg (LoanRole.repay · (some cfg.reserve)) (amountAt_of_tag [20] [index] amount bound)

theorem kaminoBorrowTag_cases (wrapping : Wrapping) :
    wrapping.kaminoBorrowTag = kaminoBorrowDiscriminator ∨
      wrapping.kaminoBorrowTag = kaminoDirectBorrowDiscriminator := by
  cases wrapping with
  | helios heliosIx => exact Or.inl rfl
  | direct swapIxs => exact Or.inr rfl

theorem kaminoBorrowTag_length (wrapping : Wrapping) : wrapping.kaminoBorrowTag.length = 8 := by
  cases wrapping with
  | helios heliosIx => rfl
  | direct swapIxs => rfl

theorem loanRole_kaminoBorrow (wrapping : Wrapping) (accounts : List AccountMeta) (amount : Nat)
    (bound : amount < 2 ^ 64) :
    loanRole .kamino (kaminoBorrowIx wrapping.kaminoBorrowTag accounts amount) =
      .borrow amount (kaminoReserve accounts) := by
  have start : (kaminoBorrowIx wrapping.kaminoBorrowTag accounts amount).data.take 8 =
      wrapping.kaminoBorrowTag := by
    rw [kaminoBorrowIx]
    exact List.take_left' (kaminoBorrowTag_length wrapping)
  have read : amountAt 8 (kaminoBorrowIx wrapping.kaminoBorrowTag accounts amount).data =
      amount := by
    have tagged := amountAt_of_tag wrapping.kaminoBorrowTag [] amount bound
    rw [List.append_nil, kaminoBorrowTag_length] at tagged
    exact tagged
  have sent : (kaminoBorrowIx wrapping.kaminoBorrowTag accounts amount).programId =
      kaminoProgramId := by
    rw [kaminoBorrowIx]
  rw [loanRole, start, if_pos ⟨sent, kaminoBorrowTag_cases wrapping⟩, read, kaminoBorrowIx]

theorem loanRole_kaminoRepay (accounts : List AccountMeta) (amount : Nat) (index : UInt8)
    (bound : amount < 2 ^ 64) :
    loanRole .kamino (kaminoRepayIx accounts amount index) =
      .repay amount (kaminoReserve accounts) := by
  have start : (kaminoRepayIx accounts amount index).data.take 8 = kaminoRepayDiscriminator := by
    rw [kaminoRepayIx]
    exact List.take_left' rfl
  have read : amountAt 8 (kaminoRepayIx accounts amount index).data = amount :=
    amountAt_of_tag kaminoRepayDiscriminator [index] amount bound
  have tag : ¬ ((kaminoRepayIx accounts amount index).programId = kaminoProgramId ∧
      (kaminoRepayDiscriminator = kaminoBorrowDiscriminator ∨
        kaminoRepayDiscriminator = kaminoDirectBorrowDiscriminator)) := by
    intro ⟨_, either⟩
    rcases either with same | same
    · exact absurd same (by decide)
    · exact absurd same (by decide)
  rw [loanRole, start, if_neg tag, if_pos (isKaminoRepay_repay accounts amount index), read,
    kaminoRepayIx]

theorem repays_of_bracket (provider : FlashProvider) (amount : Nat) (reserve : Pubkey)
    (swaps : List Instruction) (opening closing : Instruction)
    (borrows : loanRole provider opening = .borrow amount (some reserve))
    (repays : loanRole provider closing = .repay amount (some reserve)) :
    RepaysWhatItBorrows provider amount swaps ([opening] ++ swaps ++ [closing]) := by
  refine ⟨[opening], [closing], reserve, rfl, ?_, ?_, amount, Nat.le_refl _, ?_⟩
  · rw [List.map_singleton, borrows]
    rfl
  · rw [List.map_singleton, repays]
    rfl
  · rw [List.map_singleton, repays]
    exact List.mem_singleton.mpr rfl

theorem loanRole_marginfiBorrow (cfg : MarginfiConfig) (payer user authority : Pubkey)
    (amount : Nat) (bound : amount < 2 ^ 64) :
    loanRole .marginFi (marginfiBorrowIx cfg payer user authority amount) =
      .borrow amount (some cfg.bank) := by
  have start : (marginfiBorrowIx cfg payer user authority amount).data.take 8 =
      [4, 126, 116, 53, 48, 5, 212, 31] := by
    rw [marginfiBorrowIx, marginfiBorrowData]
    exact List.take_left' rfl
  have read : amountAt 8 (marginfiBorrowIx cfg payer user authority amount).data = amount := by
    have tagged := amountAt_of_tag [4, 126, 116, 53, 48, 5, 212, 31] [] amount bound
    rw [List.append_nil] at tagged
    exact tagged
  rw [loanRole, start, if_pos ⟨rfl, rfl⟩, read]
  rfl

theorem loanRole_marginfiBegin (cfg : MarginfiConfig) (payer : Pubkey) (endIndex : Nat) :
    loanRole .marginFi (marginfiBeginIx cfg payer endIndex) = .other := by
  have start : (marginfiBeginIx cfg payer endIndex).data.take 8 =
      [14, 131, 33, 220, 81, 186, 180, 107] := by
    rw [marginfiBeginIx, marginfiStartFlashloanData]
    exact List.take_left' rfl
  rw [loanRole, start, if_neg (fun both => absurd both.2 (by decide))]

theorem loanRole_marginfiEnd (cfg : MarginfiConfig) (payer : Pubkey) (others : List Pubkey) :
    loanRole .marginFi (marginfiEndIx cfg payer others) = .other := by
  have different : ¬ marginfiEndFlashloanData.take 8 = [4, 126, 116, 53, 48, 5, 212, 31] := by
    decide
  rw [loanRole, if_neg (fun both => different both.2)]

theorem loanRole_portFlash (cfg : PortConfig) (user authority : Pubkey) (amount : Nat)
    (callback : List AccountMeta) (bound : amount < 2 ^ 64) :
    loanRole .portFinance (portFlashIx cfg user authority amount callback) =
      .borrow amount (some cfg.reserve) := by
  have read := amountAt_of_tag [13] [] amount bound
  rw [List.append_nil] at read
  rw [loanRole, if_pos ⟨rfl, rfl⟩]
  exact congrArg (LoanRole.borrow · (some cfg.reserve)) read

section Loans

variable (env : FlashEnv) (builder : TxBuilder) (borrowMint : Pubkey) (borrowAmount : Nat)
  (userTokenAccount : Pubkey)

/-- Solend and Kamino loans repay around the swaps what they borrow. A MarginFi loan
borrows once between its start and the swaps, and ends behind them. A Port loan is one
call that borrows, and a carrier of the plan for its callback. -/
theorem wrapped_loan_shape (provider : FlashProvider) (wrapping : Wrapping)
    (precedingIxCount : Nat) (ixs : List Instruction) (bound : borrowAmount < 2 ^ 64)
    (done : buildWrapped env builder borrowMint borrowAmount userTokenAccount provider wrapping
      precedingIxCount = .ok ixs) :
    match provider with
    | .solend => RepaysWhatItBorrows .solend borrowAmount wrapping.swaps ixs
    | .kamino => RepaysWhatItBorrows .kamino borrowAmount wrapping.swaps ixs
    | .marginFi => ∃ beginIx borrowIx endIx bank,
        ixs = [beginIx, borrowIx] ++ wrapping.swaps ++ [endIx] ∧
        loanRole .marginFi beginIx = .other ∧
        loanRole .marginFi borrowIx = .borrow borrowAmount (some bank) ∧
        loanRole .marginFi endIx = .other ∧
        beginIx.data.take 8 = [14, 131, 33, 220, 81, 186, 180, 107] ∧
        endIx.data = marginfiEndFlashloanData
    | .portFinance => ∃ heliosIx plan flashIx carrierIx reserve, wrapping = .helios heliosIx ∧
        decodeHeliosPlan heliosIx = .ok plan ∧ ixs = [flashIx, carrierIx] ∧
        loanRole .portFinance flashIx = .borrow borrowAmount (some reserve) ∧
        flashIx.accounts.drop 13 = heliosIx.accounts.drop 4 ∧
        carrierIx.data = (PortFlashReceiverInstruction.carryPlan plan.minProfit
          plan.hopAccountCounts plan.hopData).serialize := by
  have shape := shape_of_built env builder borrowMint borrowAmount userTokenAccount provider
    wrapping precedingIxCount ixs done
  cases provider with
  | solend =>
      rcases shape with ⟨cfg, authority, same⟩
      subst same
      apply repays_of_bracket
      · exact loanRole_solendBorrow cfg userTokenAccount authority borrowAmount bound
      · exact loanRole_solendRepay cfg builder.payer userTokenAccount borrowAmount _ bound
  | kamino =>
      rcases shape with ⟨accounts, reserve, found, same⟩
      subst same
      apply repays_of_bracket
      · rw [loanRole_kaminoBorrow wrapping accounts borrowAmount bound, found]
      · rw [loanRole_kaminoRepay accounts borrowAmount _ bound, found]
  | marginFi =>
      rcases shape with ⟨cfg, authority, others, same⟩
      exact ⟨_, _, _, cfg.bank, same, loanRole_marginfiBegin cfg builder.payer _,
        loanRole_marginfiBorrow cfg builder.payer userTokenAccount authority borrowAmount bound,
        loanRole_marginfiEnd cfg builder.payer others, List.take_left' rfl, rfl⟩
  | portFinance =>
      rcases shape with ⟨heliosIx, cfg, authority, plan, heliosConfig, wraps, decoded, _, same⟩
      exact ⟨heliosIx, plan, _, _, cfg.reserve, wraps, decoded, same,
        loanRole_portFlash cfg userTokenAccount authority borrowAmount _ bound, rfl, rfl⟩

end Loans

/-! A WSOL loan around two Raydium hops. -/

section Sample

open Executability

def sampleEnv : FlashEnv := ⟨fun _ => some "", fun _ => some (.ofNat 40)⟩

def sampleCache : PoolStateCache :=
  (PoolStateCache.new.upsert (wsolPool 1 (10 ^ 13) (.ofNat 30))).upsert
    (wsolPool 2 (10 ^ 13) (.ofNat 30))

def sampleRoute : RouteParams Double where
  hops := [⟨.ofNat 1, DexPrograms.raydiumAmmV4, wsol, .ofNat (2 ^ 255), 100, ⟨0⟩⟩,
    ⟨.ofNat 2, DexPrograms.raydiumAmmV4, .ofNat (2 ^ 255), wsol, 100, ⟨0⟩⟩]
  borrowAmount := 100
  grossProfit := 0
  netProfit := 0
  riskFactor := ⟨0⟩
  strategy := ""
  tier := 0

def samplePlan : TxPlan Double := .helios ⟨⟨10⟩, 1000, 5000⟩ sampleRoute sampleCache HashMap.empty

/-- A transfer of lamports, the form every tip has. -/
def sampleTip : Instruction :=
  ⟨systemProgramId, [.new (.ofNat 7) true, .new (.ofNat 50) false], [2, 0, 0, 0] ++ leBytes 8 1000⟩

def sampleTx (tipIx : Option Instruction) : List Instruction :=
  (buildTx firstArgument sampleEnv constantBuilder samplePlan .kamino tipIx).toOption.getD []

theorem sampleTx_tipped : buildTx firstArgument sampleEnv constantBuilder samplePlan .kamino
    (some sampleTip) = .ok (sampleTx (some sampleTip)) :=
  eq_ok_of_isSome _ [] (by decide +kernel)

theorem sampleTx_plain : buildTx firstArgument sampleEnv constantBuilder samplePlan .kamino none =
    .ok (sampleTx none) :=
  eq_ok_of_isSome _ [] (by decide +kernel)

/-- The tip stands behind the repayment. -/
theorem tipped_repay_not_last :
    ¬ ∀ tx, buildTx firstArgument sampleEnv constantBuilder samplePlan .kamino (some sampleTip) =
      .ok tx → repayLast tx = true := by
  intro last
  have absurd := last _ sampleTx_tipped
  revert absurd
  decide +kernel

theorem untipped_repay_last_iff :
    repayLast (sampleTx none) = true ↔
      samplePlan.isJupiter = true ∨ (none : Option Instruction).all isKaminoRepay = true :=
  kamino_repay_last_iff firstArgument sampleEnv constantBuilder samplePlan none (sampleTx none)
    sampleTx_plain

def sampleHeliosIx : Instruction :=
  ((constantBuilder.buildHeliosInstruction firstArgument sampleRoute (.ofNat 9) sampleCache
    HashMap.empty).toOption).getD ⟨default, [], []⟩

theorem sampleHeliosIx_built : constantBuilder.buildHeliosInstruction firstArgument sampleRoute
    (.ofNat 9) sampleCache HashMap.empty = .ok sampleHeliosIx :=
  eq_ok_of_isSome _ _ (by decide +kernel)

def sampleWrapped (provider : FlashProvider) : List Instruction :=
  (buildWrapped sampleEnv constantBuilder wsol 100 (.ofNat 9) provider (.helios sampleHeliosIx)
    2).toOption.getD []

theorem sampleWrapped_solend : buildWrapped sampleEnv constantBuilder wsol 100 (.ofNat 9) .solend
    (.helios sampleHeliosIx) 2 = .ok (sampleWrapped .solend) :=
  eq_ok_of_isSome _ [] (by decide +kernel)

theorem sampleWrapped_port : buildWrapped sampleEnv constantBuilder wsol 100 (.ofNat 9)
    .portFinance (.helios sampleHeliosIx) 2 = .ok (sampleWrapped .portFinance) :=
  eq_ok_of_isSome _ [] (by decide +kernel)

theorem solend_index_points :
    IndexPoints constantBuilder.payer 100 .solend (.helios sampleHeliosIx) 2
      ([setComputeUnitLimit 1, setComputeUnitPrice 1] ++ sampleWrapped .solend ++ []) :=
  (embedded_index_points firstArgument sampleEnv constantBuilder).1 wsol 100 (.ofNat 9) .solend
    (.helios sampleHeliosIx) [setComputeUnitLimit 1, setComputeUnitPrice 1] (sampleWrapped .solend)
    [] sampleWrapped_solend (by decide)

/-- The call of the program is not in the list of a Port loan, so nothing stands
around it. -/
theorem port_swaps_not_between :
    ¬ ∀ ixs, buildWrapped sampleEnv constantBuilder wsol 100 (.ofNat 9) .portFinance
      (.helios sampleHeliosIx) 2 = .ok ixs →
        RepaysWhatItBorrows .portFinance 100 [sampleHeliosIx] ixs := by
  intro law
  rcases law _ sampleWrapped_port with ⟨front, back, _, same, _⟩
  have inside : sampleHeliosIx ∈ sampleWrapped .portFinance := by
    rw [same]
    exact List.mem_append_left _ (List.mem_append_right _ (List.mem_singleton.mpr rfl))
  revert inside
  decide +kernel

theorem solend_loan_repays :
    RepaysWhatItBorrows .solend 100 (Wrapping.helios sampleHeliosIx).swaps
      (sampleWrapped .solend) :=
  wrapped_loan_shape sampleEnv constantBuilder wsol 100 (.ofNat 9) .solend (.helios sampleHeliosIx)
    2 (sampleWrapped .solend) (by norm_num) sampleWrapped_solend

end Sample

end Helios.FlashSequence
