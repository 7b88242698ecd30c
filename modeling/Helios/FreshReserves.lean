import Helios.ReserveParts
import Helios.ShredReserves

/-! What a reader sees of a pool against what was last written to each side. The
reader picks one copy for both sides, by its age; the writers write the sides, and the
copies, one at a time. -/

namespace Helios.FreshReserves

open Machine Runs ShredReserves

/-- A write to a pool's reserves, or a read of them. -/
inductive Event where
  | write (op : ReserveOp)
  /-- The tracker's `apply_delta`. -/
  | transfer (isA : Bool) (amount : Nat) (credit : Bool)
  | swapDelta (now : Instant) (amountIn amountOut : Nat) (aToB : Bool)
  | read (now : Instant)

def polled (pool : DexPool) (a : Bool) : Nat := if a then pool.reserveA else pool.reserveB

def optimistic (pool : DexPool) (a : Bool) : Nat :=
  if a then pool.reserveAOptimistic else pool.reserveBOptimistic

def component (pair : Nat × Nat) (a : Bool) : Nat := if a then pair.1 else pair.2

/-- The copies of a side that a write reaches. -/
inductive Copies where
  | polledOnly
  | optimisticOnly
  | both
  deriving DecidableEq

/-- The last write to a side: its value, and where it went. -/
structure Latest where
  value : Nat
  copies : Copies

/-- The last write to each side. -/
abbrev Ledger := Bool → Latest

/-- What an event writes to a side, or derives for it. -/
def written (pool : DexPool) (a : Bool) : Event → Option Latest
  | .write (.shredDelta _ deltaA deltaB) =>
      some ⟨DexPool.addDelta (component pool.shredBase a) (if a then deltaA else deltaB),
        .optimisticOnly⟩
  | .write (.updateReserveA _ amount) => if a then some ⟨amount, .polledOnly⟩ else none
  | .write (.updateReserveB _ amount) => if a then none else some ⟨amount, .polledOnly⟩
  | .write (.updateReserveByVault _ isVaultA balance) =>
      if isVaultA = a then some ⟨balance, .polledOnly⟩ else none
  | .write (.vaultBalance _ isVaultA balance) =>
      if isVaultA = a then some ⟨balance, .both⟩ else none
  | .transfer isA amount credit =>
      if isA = a then
        some ⟨if credit then saturatingAdd64 (polled pool a) amount else polled pool a - amount,
          .polledOnly⟩
      else none
  | .swapDelta _ amountIn amountOut aToB =>
      some ⟨if aToB = a then saturatingAdd64 (polled pool a) amountIn else polled pool a - amountOut,
        .polledOnly⟩
  | .read _ => none

section Events

variable {F : Type} [FloatArith F] (powf : F → F → F)

def applyEvent (pool : DexPool) : Event → DexPool
  | .write op => applyOp pool op
  | .transfer isA amount credit => pool.applyTransfer isA amount credit
  | .swapDelta now amountIn amountOut aToB =>
      pool.applySwapDelta powf now amountIn amountOut aToB
  | .read _ => pool

def step (state : DexPool × Ledger) (event : Event) : DexPool × Ledger :=
  (applyEvent powf state.1 event, fun a => (written state.1 a event).getD (state.2 a))

/-- The ledger's values stand in the copies it names. -/
def Agrees (state : DexPool × Ledger) : Prop :=
  ∀ a, ((state.2 a).copies ≠ .optimisticOnly → polled state.1 a = (state.2 a).value) ∧
    ((state.2 a).copies ≠ .polledOnly → optimistic state.1 a = (state.2 a).value)

/-- The optimistic copy is the one a reader is given. -/
def InUse (pool : DexPool) (now : Instant) : Prop :=
  0 < pool.reserveAOptimistic ∧ 0 < pool.reserveBOptimistic ∧
    pool.lastShredUpdate.elapsedSecs now < 10

instance (pool : DexPool) (now : Instant) : Decidable (InUse pool now) := by
  unfold InUse
  infer_instance

/-- The law: a read returns on each side what was last written to it. -/
def ReadsLatest (state : DexPool × Ledger) : Event → Prop
  | .read now => ∀ a, component (state.1.effectiveReserves now) a = (state.2 a).value
  | _ => True

/-- The condition: on each side the last write went to the copy that is in use, or the
two copies are equal. -/
def PicksLatest (state : DexPool × Ledger) : Event → Prop
  | .read now => ∀ a,
      (if InUse state.1 now then (state.2 a).copies ≠ .polledOnly
        else (state.2 a).copies ≠ .optimisticOnly) ∨
      optimistic state.1 a = polled state.1 a
  | _ => True

theorem component_effectiveReserves (pool : DexPool) (now : Instant) (a : Bool) :
    component (pool.effectiveReserves now) a =
      if InUse pool now then optimistic pool a else polled pool a := by
  rw [DexPool.effectiveReserves]
  change component (if InUse pool now then _ else _) a = _
  split
  · rfl
  · rfl

/-- What an event leaves of the polled copy of a side. -/
theorem polled_applyEvent (pool : DexPool) (event : Event) (a : Bool) :
    polled (applyEvent powf pool event) a = match written pool a event with
      | some ⟨_, .optimisticOnly⟩ => polled pool a
      | some ⟨value, _⟩ => value
      | none => polled pool a := by
  cases event with
  | write op =>
      cases op with
      | shredDelta now deltaA deltaB =>
          have sideA : (pool.applyShredDelta now deltaA deltaB).reserveA = pool.reserveA := by
            rw [DexPool.applyShredDelta]
          have sideB : (pool.applyShredDelta now deltaA deltaB).reserveB = pool.reserveB := by
            rw [DexPool.applyShredDelta]
          rw [applyEvent, applyOp, polled, sideA, sideB, written, polled]
      | updateReserveA now amount => cases a <;> rfl
      | updateReserveB now amount => cases a <;> rfl
      | updateReserveByVault now isVaultA balance =>
          by_cases same : (if isVaultA then pool.reserveA else pool.reserveB) = balance
          · have idle : pool.updateReserveByVault now isVaultA balance = pool := if_pos same
            rw [applyEvent, applyOp, idle]
            subst same
            cases isVaultA <;> cases a <;> simp [polled, written]
          · have wrote : pool.updateReserveByVault now isVaultA balance =
                if isVaultA then pool.updateReserveA now balance
                else pool.updateReserveB now balance := if_neg same
            rw [applyEvent, applyOp, wrote]
            cases isVaultA <;> cases a <;> rfl
      | vaultBalance now isVaultA balance => cases isVaultA <;> cases a <;> rfl
  | transfer isA amount credit =>
      cases isA <;> cases a <;> simp [applyEvent, written, polled, DexPool.applyTransfer]
  | swapDelta now amountIn amountOut aToB =>
      rcases pool.applySwapDelta_eq powf now amountIn amountOut aToB with ⟨orca, same⟩
      rw [applyEvent, same]
      cases aToB <;> cases a <;> simp [written, polled]
  | read now => rfl

/-- What an event leaves of the optimistic copy of a side. -/
theorem optimistic_applyEvent (pool : DexPool) (event : Event) (a : Bool) :
    optimistic (applyEvent powf pool event) a = match written pool a event with
      | some ⟨_, .polledOnly⟩ => optimistic pool a
      | some ⟨value, _⟩ => value
      | none => optimistic pool a := by
  cases event with
  | write op =>
      cases op with
      | shredDelta now deltaA deltaB =>
          cases a <;>
            simp [applyEvent, applyOp, written, optimistic, component, DexPool.applyShredDelta]
      | updateReserveA now amount => cases a <;> rfl
      | updateReserveB now amount => cases a <;> rfl
      | updateReserveByVault now isVaultA balance =>
          by_cases same : (if isVaultA then pool.reserveA else pool.reserveB) = balance
          · have idle : pool.updateReserveByVault now isVaultA balance = pool := if_pos same
            rw [applyEvent, applyOp, idle]
            cases isVaultA <;> cases a <;> rfl
          · have wrote : pool.updateReserveByVault now isVaultA balance =
                if isVaultA then pool.updateReserveA now balance
                else pool.updateReserveB now balance := if_neg same
            rw [applyEvent, applyOp, wrote]
            cases isVaultA <;> cases a <;> rfl
      | vaultBalance now isVaultA balance => cases isVaultA <;> cases a <;> rfl
  | transfer isA amount credit =>
      cases isA <;> cases a <;> simp [applyEvent, written, optimistic, DexPool.applyTransfer]
  | swapDelta now amountIn amountOut aToB =>
      rcases pool.applySwapDelta_eq powf now amountIn amountOut aToB with ⟨orca, same⟩
      rw [applyEvent, same]
      cases aToB <;> cases a <;> simp [written, optimistic]
  | read now => rfl

theorem agrees_step (state : DexPool × Ledger) (event : Event) (agrees : Agrees state) :
    Agrees (step powf state event) := by
  intro a
  have polledAfter := polled_applyEvent powf state.1 event a
  have optimisticAfter := optimistic_applyEvent powf state.1 event a
  simp only [step]
  cases wrote : written state.1 a event with
  | none =>
      rw [wrote] at polledAfter optimisticAfter
      rw [polledAfter, optimisticAfter]
      exact agrees a
  | some latest =>
      rcases latest with ⟨value, copies⟩
      rw [wrote] at polledAfter optimisticAfter
      cases copies with
      | polledOnly => exact ⟨fun _ => polledAfter, fun other => absurd rfl other⟩
      | optimisticOnly => exact ⟨fun other => absurd rfl other, fun _ => optimisticAfter⟩
      | both => exact ⟨fun _ => polledAfter, fun _ => optimisticAfter⟩

/-- A read returns the last writes exactly if it picks the copies they went to. -/
theorem readsLatest_iff (state : DexPool × Ledger) (event : Event) (agrees : Agrees state) :
    ReadsLatest state event ↔ PicksLatest state event := by
  cases event with
  | write op => exact Iff.rfl
  | transfer isA amount credit => exact Iff.rfl
  | swapDelta now amountIn amountOut aToB => exact Iff.rfl
  | read now =>
      rw [ReadsLatest, PicksLatest]
      apply forall_congr'
      intro a
      rcases agrees a with ⟨inPolled, inOptimistic⟩
      rw [component_effectiveReserves]
      generalize state.2 a = latest at inPolled inOptimistic ⊢
      by_cases use : InUse state.1 now
      · rw [if_pos use, if_pos use]
        constructor
        · intro same
          by_cases other : latest.copies = .polledOnly
          · right
            rw [same, inPolled (by rw [other]; decide)]
          · exact Or.inl other
        · intro picks
          rcases picks with direct | equal
          · exact inOptimistic direct
          · by_cases other : latest.copies = .polledOnly
            · rw [equal, inPolled (by rw [other]; decide)]
            · exact inOptimistic other
      · rw [if_neg use, if_neg use]
        constructor
        · intro same
          by_cases other : latest.copies = .optimisticOnly
          · right
            rw [same, inOptimistic (by rw [other]; decide)]
          · exact Or.inl other
        · intro picks
          rcases picks with direct | equal
          · exact inPolled direct
          · by_cases other : latest.copies = .optimisticOnly
            · rw [← equal, inOptimistic (by rw [other]; decide)]
            · exact inPolled other

/-- Over any run of the writers, at any times: every read returns on each side the
value last written to it exactly if every read picks the copies last written. -/
theorem every_read_latest_iff (start : DexPool × Ledger) (events : List Event)
    (agrees : Agrees start) :
    (∀ pair ∈ trace (step powf) start events, ReadsLatest pair.1 pair.2) ↔
      ∀ pair ∈ trace (step powf) start events, PicksLatest pair.1 pair.2 := by
  have kept := trace_invariant (step powf) Agrees start events agrees
    (fun pair _ held => agrees_step powf pair.1 pair.2 held)
  constructor
  · intro reads pair member
    exact (readsLatest_iff pair.1 pair.2 (kept pair member)).mp (reads pair member)
  · intro picks pair member
    exact (readsLatest_iff pair.1 pair.2 (kept pair member)).mpr (picks pair member)

end Events

/-- A pool whose polled copy was written last, such as one just cached. -/
def polledLedger (pool : DexPool) : Ledger := fun a => ⟨polled pool a, .polledOnly⟩

theorem polledLedger_agrees (pool : DexPool) : Agrees (pool, polledLedger pool) := by
  intro a
  exact ⟨fun _ => rfl, fun other => absurd rfl other⟩

/-- A swap's delta, then an on-chain balance of vault A a second later, and a read. -/
def hiddenBalanceRun : List Event :=
  [.write (.shredDelta 0 100 (-50)), .write (.updateReserveByVault 1000000000 true 1200),
    .read 1000000000]

/-- The read returns the older `(1100, 950)`. -/
theorem newer_balance_hidden :
    ¬ ∀ pair ∈ trace (step (fun base _ => base : ℚ → ℚ → ℚ))
      (polledPool, polledLedger polledPool) hiddenBalanceRun, ReadsLatest pair.1 pair.2 := by
  intro reads
  have last := reads (step (fun base _ => base : ℚ → ℚ → ℚ)
    (step (fun base _ => base : ℚ → ℚ → ℚ) (polledPool, polledLedger polledPool)
      (.write (.shredDelta 0 100 (-50))))
    (.write (.updateReserveByVault 1000000000 true 1200)), .read 1000000000)
    (by simp [hiddenBalanceRun, trace]) true
  exact absurd last (by decide)

theorem every_read_latest_iff_polledPool :
    (∀ pair ∈ trace (step (fun base _ => base : ℚ → ℚ → ℚ))
        (polledPool, polledLedger polledPool) hiddenBalanceRun, ReadsLatest pair.1 pair.2) ↔
      ∀ pair ∈ trace (step (fun base _ => base : ℚ → ℚ → ℚ))
        (polledPool, polledLedger polledPool) hiddenBalanceRun, PicksLatest pair.1 pair.2 :=
  every_read_latest_iff (fun base _ => base) _ hiddenBalanceRun (polledLedger_agrees polledPool)

end Helios.FreshReserves
