import Helios.Fallible
import Helios.HeliosProgram
import Mathlib.Data.List.SplitLengths

/-! What the on-chain program calls, and with what: the accounts are cut into
slices, one a hop, and every slice becomes one call. -/

namespace Helios.HopExecution

open Fallible HeliosProgram

/-- A cross-program call: the instruction and the accounts it is given. -/
structure Call where
  instruction : Instruction
  accounts : List AccountInfo
  deriving DecidableEq

/-- The call of one slice: the first account is called with the others. -/
def hopCall (slice : List AccountInfo) (data : List UInt8) : Call where
  instruction := ⟨(slice.head?.map AccountInfo.key).getD default,
    slice.tail.map AccountInfo.toMeta, data⟩
  accounts := slice

def slices (remainingAccounts : List AccountInfo) (hopAccountCounts : List UInt8) :
    List (List AccountInfo) :=
  (hopAccountCounts.map UInt8.toNat).splitLengths remainingAccounts

def plannedCalls (remainingAccounts : List AccountInfo) (hopAccountCounts : List UInt8)
    (hopData : List (List UInt8)) : List Call :=
  List.zipWith hopCall (slices remainingAccounts hopAccountCounts) hopData

section Execution

variable {State : Type} (runtime : Runtime State) (config : HeliosConfig)

def runCall (state : State) (call : Call) : Except ProgramError State :=
  runtime.invoke state call.instruction call.accounts

def runCalls : State → List Call → Except ProgramError State := List.foldlM (runCall runtime)

/-- The same runtime, keeping the calls it is asked to make. -/
def logged : Runtime (State × List Call) where
  invoke := fun state instruction accounts =>
    (runtime.invoke state.1 instruction accounts).map
      (fun next => (next, state.2 ++ [⟨instruction, accounts⟩]))
  tokenAmount := fun state account => runtime.tokenAmount state.1 account

/-- The first account of a slice is a listed program that can be called. -/
def Callable (slice : List AccountInfo) : Prop :=
  ∃ program others, slice = program :: others ∧ program.key ∈ config.dexWhitelist ∧
    program.executable = true

/-- What `execute_hops` demands of its arguments. -/
structure PlanValid (remainingAccounts : List AccountInfo) (hopAccountCounts : List UInt8)
    (hopData : List (List UInt8)) : Prop where
  sameLength : hopAccountCounts.length = hopData.length
  positive : ∀ count ∈ hopAccountCounts, 0 < count
  total : (hopAccountCounts.map UInt8.toNat).sum = remainingAccounts.length
  callable : ∀ slice ∈ slices remainingAccounts hopAccountCounts, Callable config slice

theorem executeHop_ok_iff (slice : List AccountInfo) (data : List UInt8) (state after : State) :
    executeHop runtime config slice data state = .ok after ↔
      Callable config slice ∧ runCall runtime state (hopCall slice data) = .ok after := by
  cases slice with
  | nil =>
      constructor
      · intro absurd
        cases absurd
      · rintro ⟨⟨program, others, absurd, _⟩, _⟩
        cases absurd
  | cons program others =>
      constructor
      · intro done
        rw [executeHop] at done
        split at done
        · cases done
        · next listed =>
            split at done
            · cases done
            · next deployed =>
                exact ⟨⟨program, others, rfl, not_not.mp listed, Bool.not_eq_false _ ▸ deployed⟩,
                  done⟩
      · rintro ⟨⟨first, rest, same, listed, deployed⟩, ran⟩
        cases same
        rw [executeHop_of_allowed runtime config program others data state listed deployed]
        exact ran

/-- One turn of the loop takes its slice off the front, if there is enough. -/
theorem executeHopList_cons_ok_iff (remaining : List AccountInfo) (count : UInt8)
    (data : List UInt8) (rest : List (UInt8 × List UInt8)) (state after : State) :
    executeHopList runtime config remaining ((count, data) :: rest) state = .ok after ↔
      0 < count ∧ count.toNat ≤ remaining.length ∧
        ∃ next, executeHop runtime config (remaining.take count.toNat) data state = .ok next ∧
          executeHopList runtime config (remaining.drop count.toNat) rest next = .ok after := by
  rw [executeHopList]
  by_cases zero : count = 0
  · simp [zero]
  · have positive : 0 < count := UInt8.pos_iff_ne_zero.mpr zero
    by_cases short : remaining.length < count.toNat
    · simp [zero, short]
    · rw [if_neg zero, if_neg short, bind_eq_ok_iff]
      simp only [positive, not_lt.mp short, true_and]

/-- The loop succeeds exactly when its counts are positive and use up the
accounts, every slice can be called and every call succeeds. -/
theorem executeHopList_ok_iff (remaining : List AccountInfo) (plan : List (UInt8 × List UInt8))
    (state after : State) :
    executeHopList runtime config remaining plan state = .ok after ↔
      (∀ hop ∈ plan, 0 < hop.1) ∧
      (plan.map (fun hop => hop.1.toNat)).sum = remaining.length ∧
      (∀ slice ∈ (plan.map (fun hop => hop.1.toNat)).splitLengths remaining,
        Callable config slice) ∧
      runCalls runtime state (List.zipWith hopCall
        ((plan.map (fun hop => hop.1.toNat)).splitLengths remaining) (plan.map Prod.snd)) =
          .ok after := by
  induction plan generalizing remaining state with
  | nil =>
      rw [executeHopList]
      cases remaining with
      | nil => simp [runCalls, pure, Except.pure]
      | cons account others => simp
  | cons hop rest ih =>
      rcases hop with ⟨count, data⟩
      rw [executeHopList_cons_ok_iff]
      simp only [List.map_cons, List.splitLengths_cons, List.zipWith_cons_cons, List.sum_cons,
        List.forall_mem_cons, runCalls, List.foldlM_cons, bind_eq_ok_iff]
      constructor
      · rintro ⟨positive, enough, next, called, later⟩
        rcases (executeHop_ok_iff runtime config _ _ _ _).mp called with ⟨callable, ran⟩
        rcases (ih (remaining.drop count.toNat) next).mp later with ⟨counts, total, slices, runs⟩
        rw [List.length_drop] at total
        exact ⟨⟨positive, counts⟩, by omega, ⟨callable, slices⟩, next, ran, runs⟩
      · rintro ⟨⟨positive, counts⟩, total, ⟨callable, slices⟩, next, ran, runs⟩
        refine ⟨positive, by omega, next,
          (executeHop_ok_iff runtime config _ _ _ _).mpr ⟨callable, ran⟩, ?_⟩
        apply (ih (remaining.drop count.toNat) next).mpr
        exact ⟨counts, by rw [List.length_drop]; omega, slices, runs⟩

theorem executeHops_ok_iff (remainingAccounts : List AccountInfo) (hopAccountCounts : List UInt8)
    (hopData : List (List UInt8)) (state after : State) :
    executeHops runtime config remainingAccounts hopAccountCounts hopData state = .ok after ↔
      PlanValid config remainingAccounts hopAccountCounts hopData ∧
      runCalls runtime state (plannedCalls remainingAccounts hopAccountCounts hopData) =
        .ok after := by
  rw [executeHops]
  by_cases same : hopAccountCounts.length = hopData.length
  · have counts : (hopAccountCounts.zip hopData).map (fun hop => hop.1.toNat) =
        hopAccountCounts.map UInt8.toNat := by
      calc
        _ = ((hopAccountCounts.zip hopData).map Prod.fst).map UInt8.toNat := by
          rw [List.map_map]
          rfl
        _ = hopAccountCounts.map UInt8.toNat := by
          rw [List.map_fst_zip (Nat.le_of_eq same)]
    have data : (hopAccountCounts.zip hopData).map Prod.snd = hopData :=
      List.map_snd_zip (Nat.le_of_eq same.symm)
    have positive : (∀ hop ∈ hopAccountCounts.zip hopData, 0 < hop.1) ↔
        ∀ count ∈ hopAccountCounts, 0 < count := by
      have firsts := List.map_fst_zip (Nat.le_of_eq same)
      constructor
      · intro each count member
        rw [← firsts] at member
        rcases List.mem_map.mp member with ⟨hop, inside, rfl⟩
        exact each hop inside
      · intro each hop inside
        exact each hop.1 (List.of_mem_zip inside).1
    rw [if_neg (not_not_intro same), executeHopList_ok_iff, counts, data, positive]
    constructor
    · intro ⟨positive, total, callable, ran⟩
      exact ⟨⟨same, positive, total, callable⟩, ran⟩
    · intro ⟨valid, ran⟩
      exact ⟨valid.positive, valid.total, valid.callable, ran⟩
  · rw [if_pos same]
    constructor
    · intro absurd
      cases absurd
    · intro ⟨valid, _⟩
      exact absurd valid.sameLength same

/-- Keeping the calls changes nothing else. -/
theorem runCalls_logged (state : State) (made calls : List Call) :
    runCalls (logged runtime) (state, made) calls =
      (runCalls runtime state calls).map (fun after => (after, made ++ calls)) := by
  induction calls generalizing state made with
  | nil => simp [runCalls, pure, Except.pure, Except.map]
  | cons call rest ih =>
      have first : runCall (logged runtime) (state, made) call =
          (runCall runtime state call).map (fun next => (next, made ++ [call])) := rfl
      rw [runCalls, List.foldlM_cons, first, runCalls, List.foldlM_cons]
      cases ran : runCall runtime state call with
      | error failed => rfl
      | ok next =>
          have later := ih next (made ++ [call])
          rw [List.append_assoc] at later
          exact later

theorem executeHops_logged_iff (remainingAccounts : List AccountInfo)
    (hopAccountCounts : List UInt8) (hopData : List (List UInt8)) (state after : State)
    (made : List Call) :
    executeHops (logged runtime) config remainingAccounts hopAccountCounts hopData (state, []) =
        .ok (after, made) ↔
      executeHops runtime config remainingAccounts hopAccountCounts hopData state = .ok after ∧
        made = plannedCalls remainingAccounts hopAccountCounts hopData := by
  rw [executeHops_ok_iff, executeHops_ok_iff, runCalls_logged, and_assoc]
  apply and_congr_right
  intro _
  cases runCalls runtime state (plannedCalls remainingAccounts hopAccountCounts hopData) with
  | error failed => simp [Except.map]
  | ok reached =>
      simp only [Except.map, Except.ok.injEq, Prod.mk.injEq, List.nil_append]
      exact and_congr_right (fun _ => eq_comm)

end Execution

section Plan

variable (config : HeliosConfig) (remainingAccounts : List AccountInfo)
  (hopAccountCounts : List UInt8) (hopData : List (List UInt8))

theorem slices_length : (slices remainingAccounts hopAccountCounts).length =
    hopAccountCounts.length := by
  rw [slices, List.length_splitLengths, List.length_map]

variable (valid : PlanValid config remainingAccounts hopAccountCounts hopData)

include valid

theorem plannedCalls_accounts : (plannedCalls remainingAccounts hopAccountCounts hopData).map
    Call.accounts = slices remainingAccounts hopAccountCounts := by
  calc
    _ = ((slices remainingAccounts hopAccountCounts).zip hopData).map Prod.fst := by
      rw [plannedCalls, List.map_zipWith, List.zip, List.map_zipWith]
      rfl
    _ = slices remainingAccounts hopAccountCounts := by
      apply List.map_fst_zip
      rw [slices_length, valid.sameLength]

theorem plannedCalls_data : (plannedCalls remainingAccounts hopAccountCounts hopData).map
    (fun call => call.instruction.data) = hopData := by
  calc
    _ = ((slices remainingAccounts hopAccountCounts).zip hopData).map Prod.snd := by
      rw [plannedCalls, List.map_zipWith, List.zip, List.map_zipWith]
      rfl
    _ = hopData := by
      apply List.map_snd_zip
      rw [slices_length, valid.sameLength]

/-- Every account goes to one call, and the calls take them in order. -/
theorem plannedCalls_partition : (plannedCalls remainingAccounts hopAccountCounts hopData).flatMap
    Call.accounts = remainingAccounts := by
  rw [List.flatMap, plannedCalls_accounts config remainingAccounts hopAccountCounts hopData valid,
    slices, List.flatten_splitLengths]
  exact Nat.le_of_eq valid.total.symm

/-- A call goes to the first account of its slice and is given the others. -/
theorem plannedCalls_program : ∀ call ∈ plannedCalls remainingAccounts hopAccountCounts hopData,
    ∃ program others, call.accounts = program :: others ∧
      call.instruction.programId = program.key ∧
      call.instruction.accounts = others.map AccountInfo.toMeta := by
  intro call member
  rw [plannedCalls, ← List.map_uncurry_zip_eq_zipWith] at member
  rcases List.mem_map.mp member with ⟨⟨slice, data⟩, inside, rfl⟩
  rcases valid.callable slice (List.of_mem_zip inside).1 with ⟨program, others, same, _⟩
  subst same
  exact ⟨program, others, rfl, rfl, rfl⟩

end Plan

section Soundness

variable {State : Type} (runtime : Runtime State) (config : HeliosConfig)

/-- The executor succeeds exactly on a valid plan whose calls all succeed. The
calls it then makes are the first accounts of the slices, in order, each with the
rest of its slice and its own data, and the slices partition the accounts. -/
theorem executeHops_sound (remainingAccounts : List AccountInfo) (hopAccountCounts : List UInt8)
    (hopData : List (List UInt8)) (state : State) :
    ((∃ after, executeHops runtime config remainingAccounts hopAccountCounts hopData state =
        .ok after) ↔
      hopAccountCounts.length = hopData.length ∧
      (∀ count ∈ hopAccountCounts, 0 < count) ∧
      (hopAccountCounts.map UInt8.toNat).sum = remainingAccounts.length ∧
      (∀ slice ∈ slices remainingAccounts hopAccountCounts, Callable config slice) ∧
      ∃ after, runCalls runtime state (plannedCalls remainingAccounts hopAccountCounts hopData) =
        .ok after) ∧
    ∀ after made,
      executeHops (logged runtime) config remainingAccounts hopAccountCounts hopData (state, []) =
        .ok (after, made) →
      executeHops runtime config remainingAccounts hopAccountCounts hopData state = .ok after ∧
      made.map Call.accounts = slices remainingAccounts hopAccountCounts ∧
      made.map (fun call => call.instruction.data) = hopData ∧
      (∀ call ∈ made, ∃ program others, call.accounts = program :: others ∧
        call.instruction.programId = program.key ∧
        call.instruction.accounts = others.map AccountInfo.toMeta) ∧
      made.flatMap Call.accounts = remainingAccounts := by
  constructor
  · constructor
    · intro ⟨after, done⟩
      rcases (executeHops_ok_iff runtime config _ _ _ _ _).mp done with ⟨valid, ran⟩
      exact ⟨valid.sameLength, valid.positive, valid.total, valid.callable, after, ran⟩
    · intro ⟨same, positive, total, callable, after, ran⟩
      exact ⟨after, (executeHops_ok_iff runtime config _ _ _ _ _).mpr
        ⟨⟨same, positive, total, callable⟩, ran⟩⟩
  · intro after made done
    rcases (executeHops_logged_iff runtime config _ _ _ _ _ _).mp done with ⟨plain, same⟩
    have valid := ((executeHops_ok_iff runtime config _ _ _ _ _).mp plain).1
    subst same
    exact ⟨plain, plannedCalls_accounts config _ _ _ valid, plannedCalls_data config _ _ _ valid,
      plannedCalls_program config _ _ _ valid, plannedCalls_partition config _ _ _ valid⟩

def sampleAccount (key : Nat) (executable : Bool) : AccountInfo :=
  ⟨.ofNat key, false, false, executable⟩

def sampleRuntime : Runtime Unit where
  invoke := fun _ _ _ => .ok ()
  tokenAmount := fun _ _ => none

theorem executeHops_sound_sample :
    (plannedCalls [sampleAccount 1 true, sampleAccount 2 false, sampleAccount 3 true] [2, 1]
      [[9], []]).flatMap Call.accounts =
        [sampleAccount 1 true, sampleAccount 2 false, sampleAccount 3 true] :=
  ((executeHops_sound sampleRuntime ⟨default, [.ofNat 1, .ofNat 3]⟩
    [sampleAccount 1 true, sampleAccount 2 false, sampleAccount 3 true] [2, 1] [[9], []] ()).2 ()
    (plannedCalls [sampleAccount 1 true, sampleAccount 2 false, sampleAccount 3 true] [2, 1]
      [[9], []]) rfl).2.2.2.2

end Soundness

end Helios.HopExecution
