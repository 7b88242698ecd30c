import Helios.ExactQuotes
import Helios.SplitQuotes

/-! A detected swap moves the polled reserves by a quote that may be read off the optimistic
ones. Whether the polled product survives is a relation between the two copies. -/

namespace Helios.WhaleSwaps

open Machine FreshReserves ConstantProduct SplitQuotes

/-- The reserve of a side that quotes are made from. -/
def effective (pool : DexPool) (now : Instant) (a : Bool) : Nat :=
  component (pool.effectiveReserves now) a

/-! The dividend and the divisor of the pool's own quote, with the wraps of its operators. -/

def counted (pool : DexPool) (amountIn : Nat) : Nat :=
  wrap 128 (amountIn * wrappingSub 128 10000 pool.feeBps)

def dividend (pool : DexPool) (aToB : Bool) (swap : Swap) : Nat :=
  wrap 128 (counted pool swap.amountIn * effective pool swap.quotedAt (!aToB))

def divisor (pool : DexPool) (aToB : Bool) (swap : Swap) : Nat :=
  wrap 128 (effective pool swap.quotedAt aToB * 10000 + counted pool swap.amountIn)

/-- What of the amount the polled reserve takes in before it saturates. -/
def gained (pool : DexPool) (aToB : Bool) (amountIn : Nat) : Nat :=
  saturatingAdd64 (polled pool aToB) amountIn - polled pool aToB

/-- The quotient, before it is rounded down, is less than one above what the polled reserves
pay for the amount without a fee. Of the quotient only the low 64 bits count. -/
def Covered (pool : DexPool) (aToB : Bool) (swap : Swap) : Prop :=
  divisor pool aToB swap = 0 ∨
    dividend pool aToB swap % (divisor pool aToB swap * 2 ^ 64) <
      (output (polled pool aToB) (polled pool (!aToB)) (gained pool aToB swap.amountIn) + 1) *
        divisor pool aToB swap

instance (pool : DexPool) (aToB : Bool) (swap : Swap) : Decidable (Covered pool aToB swap) := by
  unfold Covered
  infer_instance

/-- The polled reserves after a swap against those before. -/
structure KeepsProduct (before after : DexPool) : Prop where
  product : before.reserveA * before.reserveB ≤ after.reserveA * after.reserveB
  positiveA : 0 < after.reserveA
  positiveB : 0 < after.reserveB

section Processor

variable {F : Type} [FloatArith F] (powf : F → F → F) (address : Pubkey) (aToB : Bool)

/-- The processor's update for a detected swap. A zero divisor stops it: the fee is a `u64`
that nothing holds below 10000. -/
def updateReserves (cache : PoolStateCache) (swap : Swap) : Option PoolStateCache :=
  match cache.get address with
  | none => some cache
  | some pool =>
      if divisor pool aToB swap = 0 then none else some (record powf address aToB cache swap)

variable {pool : DexPool} {swap : Swap}

theorem effective_pos (now : Instant) (filledA : 0 < pool.reserveA) (filledB : 0 < pool.reserveB)
    (a : Bool) : 0 < effective pool now a := by
  rw [effective, DexPool.effectiveReserves]
  split
  · next used =>
      cases a with
      | true => exact used.1
      | false => exact used.2.1
  · cases a with
    | true => exact filledA
    | false => exact filledB

theorem quote_eq (plain : pool.IsXyK) (filledA : 0 < pool.reserveA)
    (filledB : 0 < pool.reserveB) :
    pool.quote powf swap.quotedAt aToB swap.amountIn =
      wrap 64 (dividend pool aToB swap / divisor pool aToB swap) := by
  have first : 0 < (pool.effectiveReserves swap.quotedAt).1 :=
    effective_pos swap.quotedAt filledA filledB true
  have second : 0 < (pool.effectiveReserves swap.quotedAt).2 :=
    effective_pos swap.quotedAt filledA filledB false
  have live : ¬ ((pool.effectiveReserves swap.quotedAt).1 = 0 ∨
      (pool.effectiveReserves swap.quotedAt).2 = 0) := by omega
  rw [RouteExecution.quote_of_isXyK powf _ _ _ _ plain, RouteExecution.xyQuote]
  dsimp only
  rw [if_neg live]
  cases aToB with
  | true => rfl
  | false => rfl

/-- The low 64 bits of the quotient are at most a bound if the dividend, less the whole
multiples of 2^64 divisors, is below the next multiple of the divisor. -/
theorem wrap_div_le_iff (dividend divisor bound : Nat) (positive : 0 < divisor) :
    wrap 64 (dividend / divisor) ≤ bound ↔
      dividend % (divisor * 2 ^ 64) < (bound + 1) * divisor := by
  rw [wrap, ← Nat.mod_mul_right_div_self, ← Nat.div_lt_iff_lt_mul positive]
  exact Nat.lt_add_one_iff.symm

theorem polled_pos (filledA : 0 < pool.reserveA) (filledB : 0 < pool.reserveB) (a : Bool) :
    0 < polled pool a := by
  cases a with
  | true => exact filledA
  | false => exact filledB

theorem keepsProduct_of_polled (before after : DexPool) (filledA : 0 < before.reserveA)
    (filledB : 0 < before.reserveB) :
    KeepsProduct before after ↔
      polled before aToB * polled before (!aToB) ≤ polled after aToB * polled after (!aToB) := by
  have positive : 0 < before.reserveA * before.reserveB := Nat.mul_pos filledA filledB
  have order : ∀ pool : DexPool, polled pool aToB * polled pool (!aToB) =
      pool.reserveA * pool.reserveB := by
    intro pool
    cases aToB with
    | true => rfl
    | false => exact Nat.mul_comm _ _
  rw [order, order]
  constructor
  · exact KeepsProduct.product
  · intro product
    have kept : 0 < after.reserveA * after.reserveB := lt_of_lt_of_le positive product
    exact ⟨product, Nat.pos_of_mul_pos_right kept, Nat.pos_of_mul_pos_left kept⟩

/-- The polled product survives a detected swap exactly if the quote is covered. -/
theorem keeps_product_iff (cache : PoolStateCache) (pool : DexPool) (swap : Swap)
    (cached : cache.get address = some pool) (plain : pool.IsXyK) (filledA : 0 < pool.reserveA)
    (filledB : 0 < pool.reserveB) (smallA : pool.reserveA < 2 ^ 64)
    (smallB : pool.reserveB < 2 ^ 64) :
    (∀ after, updateReserves powf address aToB cache swap = some after →
        ∃ held, after.get address = some held ∧ KeepsProduct pool held) ↔
      Covered pool aToB swap := by
  rcases Nat.eq_zero_or_pos (divisor pool aToB swap) with stops | positive
  · constructor
    · exact fun _ => Or.inl stops
    · intro _ after updated
      rw [updateReserves, cached] at updated
      dsimp only at updated
      rw [if_pos stops] at updated
      cases updated
  have small : polled pool aToB < 2 ^ 64 := by
    cases aToB with
    | true => exact smallA
    | false => exact smallB
  have taken : saturatingAdd64 (polled pool aToB) swap.amountIn =
      polled pool aToB + gained pool aToB swap.amountIn := by
    rw [gained, saturatingAdd64, u64Max]
    omega
  rcases applySwapDelta_polled powf aToB pool swap.recordedAt swap.amountIn
    (pool.quote powf swap.quotedAt aToB swap.amountIn) plain with ⟨-, -, -, movedIn, movedOut⟩
  have stored := get_record powf address aToB cache swap pool cached
  generalize pool.applySwapDelta powf swap.recordedAt swap.amountIn
    (pool.quote powf swap.quotedAt aToB swap.amountIn) aToB = after at movedIn movedOut stored
  rw [quote_eq powf aToB plain filledA filledB] at movedOut
  have kept := keepsProduct_of_polled aToB pool after filledA filledB
  rw [movedIn, movedOut, taken, product_le_iff _ _ _ _ (polled_pos filledA filledB _)
    (polled_pos filledA filledB _), wrap_div_le_iff _ _ _ positive] at kept
  have done : updateReserves powf address aToB cache swap =
      some (record powf address aToB cache swap) := by
    rw [updateReserves, cached]
    exact if_neg (Nat.ne_of_gt positive)
  rw [done, Covered]
  constructor
  · intro keeps
    rcases keeps _ rfl with ⟨held, found, product⟩
    rw [stored] at found
    cases found
    exact Or.inr (kept.mp product)
  · rintro (stops | covered) next same
    · omega
    · cases same
      exact ⟨after, stored, kept.mpr covered⟩

end Processor

/-- A quote read off the polled reserves themselves is covered, whether its numerator wraps or
not, while the reserve paid into has room for the amount. -/
theorem covered_of_polled (pool : DexPool) (aToB : Bool) (swap : Swap)
    (read : ∀ a, effective pool swap.quotedAt a = polled pool a) (fee : pool.feeBps ≤ 10000)
    (filled : 0 < polled pool aToB) (room : polled pool aToB + swap.amountIn < 2 ^ 64) :
    Covered pool aToB swap := by
  have rate := wrappingSub_of_le 128 10000 pool.feeBps fee (by norm_num)
  have paid : swap.amountIn * (10000 - pool.feeBps) ≤ swap.amountIn * 10000 :=
    Nat.mul_le_mul_left _ (Nat.sub_le 10000 pool.feeBps)
  have count : counted pool swap.amountIn = swap.amountIn * (10000 - pool.feeBps) := by
    rw [counted, rate, wrap_of_lt 128 _ (by omega)]
  have divides : divisor pool aToB swap =
      polled pool aToB * 10000 + swap.amountIn * (10000 - pool.feeBps) := by
    rw [divisor, count, read, wrap_of_lt 128 _ (by omega)]
  have less : dividend pool aToB swap ≤
      swap.amountIn * (10000 - pool.feeBps) * polled pool (!aToB) := by
    rw [dividend, count, read]
    exact Nat.mod_le _ _
  have whole : gained pool aToB swap.amountIn = swap.amountIn := by
    rw [gained, saturatingAdd64, u64Max]
    omega
  have bound := ExactQuotes.exactOutput_le_output (polled pool aToB) (polled pool (!aToB))
    pool.feeBps swap.amountIn
  rw [ExactQuotes.exactOutput, output, ← Nat.lt_add_one_iff,
    Nat.div_lt_iff_lt_mul (by omega)] at bound
  rw [Covered, divides, whole]
  right
  calc dividend pool aToB swap % _
      ≤ dividend pool aToB swap := Nat.mod_le _ _
    _ ≤ swap.amountIn * (10000 - pool.feeBps) * polled pool (!aToB) := less
    _ < _ := bound

/-- A pool polled at (1000, 1000) whose optimistic copy reads (1000, 100000). -/
def torn : DexPool :=
  { ShredReserves.polledPool with reserveAOptimistic := 1000, reserveBOptimistic := 100000 }

def tornCache : PoolStateCache := PoolStateCache.new.upsert torn

/-- The quote, 49937, is taken off 1000. -/
theorem optimistic_quote_empties :
    tornCache.get default = some torn ∧ torn.IsXyK ∧ 0 < torn.reserveA ∧ 0 < torn.reserveB ∧
      ¬ ∀ after, updateReserves (fun base _ => base : ℚ → ℚ → ℚ) default true tornCache
          ⟨0, 0, 1000⟩ = some after →
        ∃ held, after.get default = some held ∧ KeepsProduct torn held := by
  have cached : tornCache.get default = some torn := rfl
  refine ⟨cached, ⟨rfl, rfl⟩, by decide, by decide, ?_⟩
  intro keeps
  have updated : updateReserves (fun base _ => base : ℚ → ℚ → ℚ) default true tornCache
      ⟨0, 0, 1000⟩ = some (record (fun base _ => base : ℚ → ℚ → ℚ) default true tornCache
        ⟨0, 0, 1000⟩) := by
    rw [updateReserves, cached]
    exact if_neg (by decide)
  rcases keeps _ updated with ⟨held, found, product⟩
  have emptied : ((record (fun base _ => base : ℚ → ℚ → ℚ) default true tornCache
      ⟨0, 0, 1000⟩).get default).map DexPool.reserveB = some 0 := by decide +kernel
  rw [found, Option.map_some, Option.some.injEq] at emptied
  have positive := product.positiveB
  omega

theorem polled_quote_keeps :
    ∃ after held, updateReserves (fun base _ => base : ℚ → ℚ → ℚ) default true tornCache
        ⟨10 ^ 10, 10 ^ 10, 1000⟩ = some after ∧
      after.get default = some held ∧ KeepsProduct torn held := by
  have updated : updateReserves (fun base _ => base : ℚ → ℚ → ℚ) default true tornCache
      ⟨10 ^ 10, 10 ^ 10, 1000⟩ = some (record (fun base _ => base : ℚ → ℚ → ℚ) default true
        tornCache ⟨10 ^ 10, 10 ^ 10, 1000⟩) := by
    rw [updateReserves, show tornCache.get default = some torn from rfl]
    exact if_neg (by decide)
  have keeps := (keeps_product_iff (fun base _ => base : ℚ → ℚ → ℚ) default true tornCache torn
    ⟨10 ^ 10, 10 ^ 10, 1000⟩ rfl ⟨rfl, rfl⟩ (by decide) (by decide) (by decide) (by decide)).mpr
      (by decide)
  rcases keeps _ updated with ⟨held, found, product⟩
  exact ⟨_, held, updated, found, product⟩

end Helios.WhaleSwaps
