import Helios.PoolState
import Helios.Runs

/-! Shred deltas against the reserves a reader sees. A delta is meant to be added
to the pair `effectiveReserves` returns; the code adds it to `shredBase`, which is
chosen by a weaker test. -/

namespace Helios.ShredReserves

open Machine DexPool Runs

/-- The writers of a pool's two copies of its reserves. -/
inductive ReserveOp where
  | shredDelta (now : Instant) (deltaA deltaB : Int)
  | updateReserveA (now : Instant) (amount : Nat)
  | updateReserveB (now : Instant) (amount : Nat)
  | updateReserveByVault (now : Instant) (isVaultA : Bool) (newBalance : Nat)
  | vaultBalance (now : Instant) (isVaultA : Bool) (balance : Nat)

def applyOp (pool : DexPool) : ReserveOp → DexPool
  | .shredDelta now deltaA deltaB => pool.applyShredDelta now deltaA deltaB
  | .updateReserveA now amount => pool.updateReserveA now amount
  | .updateReserveB now amount => pool.updateReserveB now amount
  | .updateReserveByVault now isVaultA newBalance =>
      pool.updateReserveByVault now isVaultA newBalance
  | .vaultBalance now isVaultA balance => pool.applyVaultBalance now isVaultA balance

/-- Every copy of a reserve is below `2 ^ 63`. -/
structure PoolBelow (pool : DexPool) : Prop where
  reserveA : pool.reserveA < 2 ^ 63
  reserveB : pool.reserveB < 2 ^ 63
  optimisticA : pool.reserveAOptimistic < 2 ^ 63
  optimisticB : pool.reserveBOptimistic < 2 ^ 63

/-- Every amount an operation carries is below `2 ^ 63`. -/
def OpBelow : ReserveOp → Prop
  | .shredDelta _ deltaA deltaB =>
      -2 ^ 63 < deltaA ∧ deltaA < 2 ^ 63 ∧ -2 ^ 63 < deltaB ∧ deltaB < 2 ^ 63
  | .updateReserveA _ amount => amount < 2 ^ 63
  | .updateReserveB _ amount => amount < 2 ^ 63
  | .updateReserveByVault _ _ newBalance => newBalance < 2 ^ 63
  | .vaultBalance _ _ balance => balance < 2 ^ 63

/-- A side with a delta added, clamped at zero. -/
def shifted (reserve : Nat) (delta : Int) : Nat := ((reserve : Int) + delta).toNat

/-- For a shred delta with both results positive: every read within 10 s returns
the pair read before it, plus the delta. -/
def DeltaAdds (pool : DexPool) : ReserveOp → Prop
  | .shredDelta now deltaA deltaB =>
      0 < shifted (pool.effectiveReserves now).1 deltaA →
      0 < shifted (pool.effectiveReserves now).2 deltaB →
      ∀ later, now.elapsedSecs later < 10 →
        (pool.applyShredDelta now deltaA deltaB).effectiveReserves later =
          (shifted (pool.effectiveReserves now).1 deltaA,
            shifted (pool.effectiveReserves now).2 deltaB)
  | _ => True

/-- The pair the delta is added to is the pair a reader sees and neither sum
leaves `i64`, or the delta is zero and the optimistic `b` side is zero. -/
def DeltaReady (pool : DexPool) : ReserveOp → Prop
  | .shredDelta now deltaA deltaB =>
      0 < shifted (pool.effectiveReserves now).1 deltaA →
      0 < shifted (pool.effectiveReserves now).2 deltaB →
      (pool.shredBase = pool.effectiveReserves now ∧
        shifted (pool.effectiveReserves now).1 deltaA < 2 ^ 63 ∧
        shifted (pool.effectiveReserves now).2 deltaB < 2 ^ 63) ∨
      (deltaA = 0 ∧ deltaB = 0 ∧ pool.reserveBOptimistic = 0)
  | _ => True

theorem addDelta_of_lt (base : Nat) (delta : Int) (small : base < 2 ^ 63)
    (low : -2 ^ 63 < delta) (high : (base : Int) + delta < 2 ^ 63) :
    addDelta base delta = shifted base delta := by
  have read : wrapI64 base = base := wrapI64_of_bounds _ (by omega) (by exact_mod_cast small)
  rw [addDelta, read, wrapI64_of_bounds _ (by omega) high, shifted]

/-- A sum that leaves `i64` comes out negative and is clamped to zero. -/
theorem addDelta_of_overflow (base : Nat) (delta : Int) (small : base < 2 ^ 63)
    (bound : delta < 2 ^ 63) (high : 2 ^ 63 ≤ (base : Int) + delta) : addDelta base delta = 0 := by
  have read : wrapI64 base = base := wrapI64_of_bounds _ (by omega) (by exact_mod_cast small)
  have wrapped : wrapI64 ((base : Int) + delta) = (base : Int) + delta - 2 ^ 64 :=
    wrapI64_of_overflow _ high (by omega)
  rw [addDelta, read, wrapped]
  omega

theorem addDelta_below (base : Nat) (delta : Int) : addDelta base delta < 2 ^ 63 := by
  have bound := wrapI64_lt (wrapI64 base + delta)
  simp only [addDelta]
  omega

@[simp] theorem applyShredDelta_reserveA (pool : DexPool) (now : Instant)
    (deltaA deltaB : Int) : (pool.applyShredDelta now deltaA deltaB).reserveA = pool.reserveA := by
  rw [applyShredDelta]

@[simp] theorem applyShredDelta_reserveB (pool : DexPool) (now : Instant)
    (deltaA deltaB : Int) : (pool.applyShredDelta now deltaA deltaB).reserveB = pool.reserveB := by
  rw [applyShredDelta]

@[simp] theorem applyShredDelta_optimisticA (pool : DexPool) (now : Instant)
    (deltaA deltaB : Int) : (pool.applyShredDelta now deltaA deltaB).reserveAOptimistic =
      addDelta pool.shredBase.1 deltaA := by
  rw [applyShredDelta]

@[simp] theorem applyShredDelta_optimisticB (pool : DexPool) (now : Instant)
    (deltaA deltaB : Int) : (pool.applyShredDelta now deltaA deltaB).reserveBOptimistic =
      addDelta pool.shredBase.2 deltaB := by
  rw [applyShredDelta]

theorem applyOp_below (pool : DexPool) (op : ReserveOp) (below : PoolBelow pool)
    (small : OpBelow op) : PoolBelow (applyOp pool op) := by
  cases op with
  | shredDelta now deltaA deltaB =>
      rw [applyOp]
      constructor
      · simpa only [applyShredDelta_reserveA] using below.reserveA
      · simpa only [applyShredDelta_reserveB] using below.reserveB
      · simpa only [applyShredDelta_optimisticA] using addDelta_below _ _
      · simpa only [applyShredDelta_optimisticB] using addDelta_below _ _
  | updateReserveA now amount =>
      simp only [OpBelow] at small
      exact ⟨small, below.reserveB, below.optimisticA, below.optimisticB⟩
  | updateReserveB now amount =>
      simp only [OpBelow] at small
      exact ⟨below.reserveA, small, below.optimisticA, below.optimisticB⟩
  | updateReserveByVault now isVaultA newBalance =>
      simp only [OpBelow] at small
      unfold applyOp DexPool.updateReserveByVault
      cases isVaultA with
      | true =>
          by_cases same : pool.reserveA = newBalance
          · simpa [same] using below
          · simp only [if_true, if_neg same]
            exact ⟨small, below.reserveB, below.optimisticA, below.optimisticB⟩
      | false =>
          by_cases same : pool.reserveB = newBalance
          · simpa [same] using below
          · simp only [Bool.false_eq_true, if_false, if_neg same]
            exact ⟨below.reserveA, small, below.optimisticA, below.optimisticB⟩
  | vaultBalance now isVaultA balance =>
      simp only [OpBelow] at small
      cases isVaultA with
      | true => exact ⟨small, below.reserveB, small, below.optimisticB⟩
      | false => exact ⟨below.reserveA, small, below.optimisticA, small⟩

theorem effectiveReserves_below (pool : DexPool) (now : Instant) (below : PoolBelow pool) :
    (pool.effectiveReserves now).1 < 2 ^ 63 ∧ (pool.effectiveReserves now).2 < 2 ^ 63 := by
  unfold effectiveReserves
  split
  · exact ⟨below.optimisticA, below.optimisticB⟩
  · exact ⟨below.reserveA, below.reserveB⟩

/-- Within 10 s a reader sees the two new sums if both are positive, else the
polled pair. -/
theorem effectiveReserves_applyShredDelta (pool : DexPool) (now later : Instant)
    (deltaA deltaB : Int) (soon : now.elapsedSecs later < 10) :
    (pool.applyShredDelta now deltaA deltaB).effectiveReserves later =
      if 0 < addDelta pool.shredBase.1 deltaA ∧ 0 < addDelta pool.shredBase.2 deltaB then
        (addDelta pool.shredBase.1 deltaA, addDelta pool.shredBase.2 deltaB)
      else (pool.reserveA, pool.reserveB) := by
  by_cases both : 0 < addDelta pool.shredBase.1 deltaA ∧ 0 < addDelta pool.shredBase.2 deltaB
  · rw [if_pos both, effectiveReserves, applyShredDelta_optimisticA, applyShredDelta_optimisticB,
      if_pos ⟨both.1, both.2, soon⟩]
  · rw [if_neg both, effectiveReserves, applyShredDelta_optimisticA, applyShredDelta_optimisticB,
      if_neg (fun all => both ⟨all.1, all.2.1⟩), applyShredDelta_reserveA,
      applyShredDelta_reserveB]

/-- When the two tests disagree, the delta goes on top of an optimistic pair that
a reader had already turned down. -/
theorem shredBase_ne (pool : DexPool) (now : Instant)
    (differ : pool.shredBase ≠ pool.effectiveReserves now) :
    pool.shredBase = (pool.reserveAOptimistic, pool.reserveBOptimistic) ∧
      pool.effectiveReserves now = (pool.reserveA, pool.reserveB) ∧
      0 < pool.reserveAOptimistic := by
  by_cases positive : 0 < pool.reserveAOptimistic
  · have base : pool.shredBase = (pool.reserveAOptimistic, pool.reserveBOptimistic) := by
      simp [shredBase, positive]
    refine ⟨base, ?_, positive⟩
    unfold effectiveReserves
    split
    · next fresh => exact absurd (by simp [base, effectiveReserves, fresh]) differ
    · rfl
  · exact absurd (by simp [shredBase, effectiveReserves, positive]) differ

theorem shifted_of_pos (reserve : Nat) (delta : Int) (positive : 0 < shifted reserve delta) :
    (shifted reserve delta : Int) = (reserve : Int) + delta := by
  simp only [shifted] at *
  omega

/-- A positive sum is the exact one. -/
theorem addDelta_pos (base : Nat) (delta : Int) (small : base < 2 ^ 63)
    (low : -2 ^ 63 < delta) (high : delta < 2 ^ 63) (positive : 0 < addDelta base delta) :
    (addDelta base delta : Int) = (base : Int) + delta := by
  by_cases fits : (base : Int) + delta < 2 ^ 63
  · rw [addDelta_of_lt base delta small low fits] at positive ⊢
    exact shifted_of_pos base delta positive
  · rw [addDelta_of_overflow base delta small high (by omega)] at positive
    exact absurd positive (by decide)

theorem deltaReady_of_adds (pool : DexPool) (now : Instant) (deltaA deltaB : Int)
    (below : PoolBelow pool) (small : OpBelow (.shredDelta now deltaA deltaB))
    (adds : DeltaAdds pool (.shredDelta now deltaA deltaB)) :
    DeltaReady pool (.shredDelta now deltaA deltaB) := by
  obtain ⟨lowA, highA, lowB, highB⟩ := small
  obtain ⟨seenA, seenB⟩ := effectiveReserves_below pool now below
  have here : now.elapsedSecs now < 10 := by simp [Instant.elapsedSecs]
  intro positiveA positiveB
  have read := adds positiveA positiveB now here
  have sumA := shifted_of_pos _ deltaA positiveA
  have sumB := shifted_of_pos _ deltaB positiveB
  rw [effectiveReserves_applyShredDelta pool now now deltaA deltaB here] at read
  by_cases agree : pool.shredBase = pool.effectiveReserves now
  · -- same base: a sum past `i64` would leave the polled pair visible
    rw [agree] at read
    have polledA := below.reserveA
    have polledB := below.reserveB
    refine Or.inl ⟨agree, ?_, ?_⟩
    · by_contra large
      rw [addDelta_of_overflow _ deltaA seenA highA (by omega)] at read
      have first := congrArg Prod.fst read
      simp only [lt_self_iff_false, false_and, if_false] at first
      omega
    · by_contra large
      rw [addDelta_of_overflow _ deltaB seenB highB (by omega)] at read
      have second := congrArg Prod.snd read
      simp only [lt_self_iff_false, and_false, if_false] at second
      omega
  · obtain ⟨base, seen, positive⟩ := shredBase_ne pool now agree
    rw [seen] at read sumA sumB
    rw [base] at read
    simp only at read sumA sumB
    have optimisticA := below.optimisticA
    have optimisticB := below.optimisticB
    by_cases both : 0 < addDelta pool.reserveAOptimistic deltaA ∧
        0 < addDelta pool.reserveBOptimistic deltaB
    · -- the optimistic sums are visible, so the two bases would coincide
      rw [if_pos both] at read
      have exactA := addDelta_pos _ deltaA optimisticA lowA highA both.1
      have exactB := addDelta_pos _ deltaB optimisticB lowB highB both.2
      have first := congrArg Prod.fst read
      have second := congrArg Prod.snd read
      simp only at first second
      have sameA : pool.reserveAOptimistic = pool.reserveA := by omega
      have sameB : pool.reserveBOptimistic = pool.reserveB := by omega
      exact absurd (by rw [base, seen, sameA, sameB]) agree
    · -- the polled pair is visible, so the delta must have been zero
      rw [if_neg both] at read
      have first := congrArg Prod.fst read
      have second := congrArg Prod.snd read
      simp only at first second
      have zeroA : deltaA = 0 := by omega
      have zeroB : deltaB = 0 := by omega
      subst zeroA zeroB
      rw [addDelta_of_lt _ 0 optimisticA (by norm_num) (by omega),
        addDelta_of_lt _ 0 optimisticB (by norm_num) (by omega)] at both
      simp only [shifted, Int.add_zero, Int.toNat_natCast] at both
      exact Or.inr ⟨rfl, rfl, by omega⟩

theorem deltaAdds_of_ready (pool : DexPool) (now : Instant) (deltaA deltaB : Int)
    (below : PoolBelow pool) (small : OpBelow (.shredDelta now deltaA deltaB))
    (ready : DeltaReady pool (.shredDelta now deltaA deltaB)) :
    DeltaAdds pool (.shredDelta now deltaA deltaB) := by
  obtain ⟨lowA, highA, lowB, highB⟩ := small
  obtain ⟨seenA, seenB⟩ := effectiveReserves_below pool now below
  intro positiveA positiveB later soon
  rw [effectiveReserves_applyShredDelta pool now later deltaA deltaB soon]
  rcases ready positiveA positiveB with ⟨agree, fitsA, fitsB⟩ | ⟨zeroA, zeroB, empty⟩
  · have sumA := shifted_of_pos _ deltaA positiveA
    have sumB := shifted_of_pos _ deltaB positiveB
    rw [agree, addDelta_of_lt _ deltaA seenA lowA (by omega),
      addDelta_of_lt _ deltaB seenB lowB (by omega), if_pos ⟨positiveA, positiveB⟩]
  · subst zeroA zeroB
    have polled : pool.effectiveReserves now = (pool.reserveA, pool.reserveB) := by
      simp [effectiveReserves, empty]
    have plain : ∀ reserve : Nat, shifted reserve 0 = reserve := by
      intro reserve
      simp [shifted]
    rw [polled] at positiveA positiveB seenA seenB ⊢
    simp only [plain] at positiveA positiveB ⊢
    by_cases positive : 0 < pool.reserveAOptimistic
    · have second : addDelta pool.shredBase.2 0 = 0 := by
        rw [shredBase, if_pos positive, empty, addDelta_of_lt 0 0 (by norm_num) (by norm_num)
          (by norm_num), plain]
      rw [if_neg (by omega)]
    · have base : pool.shredBase = (pool.reserveA, pool.reserveB) := by
        simp [shredBase, positive]
      rw [base, addDelta_of_lt _ 0 seenA (by norm_num) (by omega),
        addDelta_of_lt _ 0 seenB (by norm_num) (by omega), plain, plain,
        if_pos ⟨positiveA, positiveB⟩]

/-- Exactly when one delta adds to the pair a reader sees. -/
theorem deltaAdds_iff_deltaReady (pool : DexPool) (op : ReserveOp) (below : PoolBelow pool)
    (small : OpBelow op) : DeltaAdds pool op ↔ DeltaReady pool op := by
  cases op with
  | updateReserveA | updateReserveB | updateReserveByVault | vaultBalance =>
      simp only [DeltaAdds, DeltaReady]
  | shredDelta now deltaA deltaB =>
      exact ⟨deltaReady_of_adds pool now deltaA deltaB below small,
        deltaAdds_of_ready pool now deltaA deltaB below small⟩

theorem trace_below (start : DexPool) (ops : List ReserveOp) (below : PoolBelow start)
    (small : ∀ op ∈ ops, OpBelow op) :
    ∀ pair ∈ trace applyOp start ops, PoolBelow pair.1 :=
  trace_invariant applyOp PoolBelow start ops below (fun pair member kept =>
    applyOp_below pair.1 pair.2 kept (small pair.2 (trace_input applyOp start ops pair member)))

/-- Over any run of the writers: every delta adds to the pair a reader sees if and
only if every delta is ready when it is applied. -/
theorem every_delta_adds_iff (start : DexPool) (ops : List ReserveOp) (below : PoolBelow start)
    (small : ∀ op ∈ ops, OpBelow op) :
    (∀ pair ∈ trace applyOp start ops, DeltaAdds pair.1 pair.2) ↔
      ∀ pair ∈ trace applyOp start ops, DeltaReady pair.1 pair.2 := by
  have each : ∀ pair ∈ trace applyOp start ops,
      (DeltaAdds pair.1 pair.2 ↔ DeltaReady pair.1 pair.2) := by
    intro pair member
    exact deltaAdds_iff_deltaReady pair.1 pair.2 (trace_below start ops below small pair member)
      (small pair.2 (trace_input applyOp start ops pair member))
  constructor
  · intro adds pair member
    exact (each pair member).mp (adds pair member)
  · intro ready pair member
    exact (each pair member).mpr (ready pair member)

/-- A pool polled at (1000, 1000) that no shred has touched yet. -/
def polledPool : DexPool :=
  { poolAddress := default, dexType := .raydiumAmmV4, tokenA := default, tokenB := default
    decimalsA := 9, decimalsB := 9, reserveA := 1000, reserveB := 1000
    reserveAOptimistic := 0, reserveBOptimistic := 0, lastShredUpdate := 0
    poolVaultABalance := 1000, poolVaultBBalance := 1000
    marketVaultABalance := 0, marketVaultBBalance := 0, lastUpdated := 0, feeBps := 25
    raydiumMeta := none, orcaMeta := none, meteoraMeta := none }

/-- One vault notification for side `a`, then a swap's delta 1 s later. -/
def oneSidedRun : List ReserveOp :=
  [.vaultBalance 1000000000 true 1200, .shredDelta 2000000000 100 (-50)]

/-- The delta lands on `(1200, 0)`, a pair no reader sees, and is lost. -/
theorem one_sided_vault_update_loses_delta :
    ¬ ∀ pair ∈ trace applyOp polledPool oneSidedRun, DeltaAdds pair.1 pair.2 := by
  intro adds
  have lost := adds (polledPool.applyVaultBalance 1000000000 true 1200,
    .shredDelta 2000000000 100 (-50)) (by simp [oneSidedRun, trace, applyOp])
    (by decide) (by decide) 2000000000 (by decide)
  exact absurd lost (by decide)

theorem every_delta_adds_iff_polledPool :
    (∀ pair ∈ trace applyOp polledPool oneSidedRun, DeltaAdds pair.1 pair.2) ↔
      ∀ pair ∈ trace applyOp polledPool oneSidedRun, DeltaReady pair.1 pair.2 :=
  every_delta_adds_iff polledPool oneSidedRun
    ⟨by decide, by decide, by decide, by decide⟩
    (by
      intro op member
      simp only [oneSidedRun, List.mem_cons, List.not_mem_nil, or_false] at member
      rcases member with rfl | rfl
      · simp [OpBelow]
      · simp [OpBelow])

end Helios.ShredReserves
