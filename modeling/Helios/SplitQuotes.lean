import Helios.ConstantProduct
import Helios.FreshReserves

/-! Swaps of one direction, each quoted by its pool and then recorded, against one swap
of the whole amount. -/

namespace Helios.SplitQuotes

open Machine FreshReserves ConstantProduct

/-- A detected swap, and when it is quoted and recorded. -/
structure Swap where
  quotedAt : Instant
  recordedAt : Instant
  amountIn : Nat

def total (swaps : List Swap) : Nat := (swaps.map Swap.amountIn).sum

section Run

variable {F : Type} [FloatArith F] (powf : F → F → F) (address : Pubkey) (aToB : Bool)

def quoted (cache : PoolStateCache) (swap : Swap) : Nat :=
  match cache.get address with
  | some pool => pool.quote powf swap.quotedAt aToB swap.amountIn
  | none => 0

def record (cache : PoolStateCache) (swap : Swap) : PoolStateCache :=
  cache.applySwapDelta powf swap.recordedAt address swap.amountIn
    (quoted powf address aToB cache swap) aToB

/-- The quotes of the swaps, each on the cache the swaps before it leave. -/
def quotes : PoolStateCache → List Swap → List Nat
  | _, [] => []
  | cache, swap :: rest =>
      quoted powf address aToB cache swap :: quotes (record powf address aToB cache swap) rest

/-- The quote of the whole amount, at the first swap's instant. -/
def quotedAtOnce (cache : PoolStateCache) (swaps : List Swap) : Nat :=
  match swaps with
  | [] => 0
  | first :: _ => quoted powf address aToB cache { first with amountIn := total swaps }

/-- The condition on the pool and the swaps: constant-product quotes that read the polled
reserves, which are what a record moves, and no word overflows. -/
structure Moved (pool : DexPool) (swaps : List Swap) : Prop where
  plain : pool.IsXyK
  polledRead : ∀ swap ∈ swaps, ¬ InUse pool swap.quotedAt
  fee : pool.feeBps ≤ 10000
  filled : polled pool (!aToB) = 0 ∨ 0 < polled pool aToB
  held : polled pool aToB + total swaps < 2 ^ 64
  fits : total swaps * (10000 - pool.feeBps) * polled pool (!aToB) < 2 ^ 128

instance (pool : DexPool) (swaps : List Swap) : Decidable (Moved aToB pool swaps) :=
  decidable_of_iff (pool.IsXyK ∧ (∀ swap ∈ swaps, ¬ InUse pool swap.quotedAt) ∧
      pool.feeBps ≤ 10000 ∧ (polled pool (!aToB) = 0 ∨ 0 < polled pool aToB) ∧
      polled pool aToB + total swaps < 2 ^ 64 ∧
      total swaps * (10000 - pool.feeBps) * polled pool (!aToB) < 2 ^ 128)
    ⟨fun ⟨plain, polledRead, fee, filled, held, fits⟩ =>
        ⟨plain, polledRead, fee, filled, held, fits⟩,
      fun moved => ⟨moved.plain, moved.polledRead, moved.fee, moved.filled, moved.held,
        moved.fits⟩⟩

theorem get_record (cache : PoolStateCache) (swap : Swap) (pool : DexPool)
    (cached : cache.get address = some pool) :
    (record powf address aToB cache swap).get address =
      some (pool.applySwapDelta powf swap.recordedAt swap.amountIn
        (pool.quote powf swap.quotedAt aToB swap.amountIn) aToB) := by
  have quote : quoted powf address aToB cache swap =
      pool.quote powf swap.quotedAt aToB swap.amountIn := by
    rw [quoted, cached]
  rw [record, quote]
  change (cache.getMut address _).get address = _
  rw [PoolStateCache.get_getMut, if_pos rfl, cached, Option.map_some]

/-- What a record does to a constant-product pool. -/
theorem applySwapDelta_polled (pool : DexPool) (now : Instant) (amountIn amountOut : Nat)
    (plain : pool.IsXyK) :
    let after := pool.applySwapDelta powf now amountIn amountOut aToB
    after.IsXyK ∧ after.feeBps = pool.feeBps ∧
      (∀ later, InUse after later ↔ InUse pool later) ∧
      polled after aToB = saturatingAdd64 (polled pool aToB) amountIn ∧
      polled after (!aToB) = polled pool (!aToB) - amountOut := by
  have noOrca : pool.orcaMeta = none := plain.1
  have noMeteora : pool.meteoraMeta = none := plain.2
  by_cases whirlpool : pool.dexType = .orcaWhirlpool
  · cases aToB with
    | true =>
        simp [DexPool.applySwapDelta, DexPool.IsXyK, InUse, polled, whirlpool, noOrca, noMeteora]
    | false =>
        simp [DexPool.applySwapDelta, DexPool.IsXyK, InUse, polled, whirlpool, noOrca, noMeteora]
  · cases aToB with
    | true =>
        simp [DexPool.applySwapDelta, DexPool.IsXyK, InUse, polled, whirlpool, noOrca, noMeteora]
    | false =>
        simp [DexPool.applySwapDelta, DexPool.IsXyK, InUse, polled, whirlpool, noOrca, noMeteora]

theorem quote_of_polled (pool : DexPool) (now : Instant) (amountIn : Nat) (plain : pool.IsXyK)
    (polledRead : ¬ InUse pool now) :
    pool.quote powf now aToB amountIn =
      if polled pool aToB = 0 ∨ polled pool (!aToB) = 0 then 0
      else DexPool.xyKQuote (polled pool aToB) (polled pool (!aToB)) pool.feeBps amountIn := by
  have reserves : pool.effectiveReserves now = (pool.reserveA, pool.reserveB) := if_neg polledRead
  rw [DexPool.quote, reserves, plain.1, plain.2]
  cases aToB with
  | true => rfl
  | false =>
      dsimp only [polled]
      simp only [or_comm, Bool.not_false, if_true, Bool.false_eq_true, if_false]

/-- The quote as a payment to the constant-product market. -/
theorem quote_eq_output (pool : DexPool) (swap : Swap) (swaps : List Swap) (member : swap ∈ swaps)
    (small : polled pool (!aToB) < 2 ^ 64) (moved : Moved aToB pool swaps) (amountIn : Nat)
    (part : amountIn ≤ total swaps) :
    pool.quote powf swap.quotedAt aToB amountIn =
      output (polled pool aToB * 10000) (polled pool (!aToB))
        (amountIn * (10000 - pool.feeBps)) := by
  have held := moved.held
  rw [quote_of_polled powf aToB pool swap.quotedAt amountIn moved.plain
    (moved.polledRead swap member)]
  split
  · next empty =>
      have stock : polled pool (!aToB) = 0 := by
        rcases moved.filled with stock | filled
        · exact stock
        · exact empty.resolve_left (Nat.ne_of_gt filled)
      rw [output, stock, Nat.mul_zero, Nat.zero_div]
  · rw [output]
    apply DexPool.xyKQuote_of_fits _ _ _ _ moved.fee (by omega) small (by omega)
    refine lt_of_le_of_lt ?_ moved.fits
    exact Nat.mul_le_mul_right _ (Nat.mul_le_mul_right _ part)

theorem total_cons (swap : Swap) (rest : List Swap) :
    total (swap :: rest) = swap.amountIn + total rest := by
  rw [total, List.map_cons, List.sum_cons, total]

/-- The condition for the swaps that follow. -/
theorem moved_record (pool : DexPool) (swap : Swap) (rest : List Swap)
    (moved : Moved aToB pool (swap :: rest)) (amountOut : Nat) :
    Moved aToB (pool.applySwapDelta powf swap.recordedAt swap.amountIn amountOut aToB) rest := by
  rcases applySwapDelta_polled powf aToB pool swap.recordedAt swap.amountIn amountOut
    moved.plain with ⟨plain, fee, sameUse, paid, taken⟩
  have held := moved.held
  rw [total_cons] at held
  have exactly : saturatingAdd64 (polled pool aToB) swap.amountIn =
      polled pool aToB + swap.amountIn := by
    rw [saturatingAdd64, u64Max]
    omega
  rw [exactly] at paid
  constructor
  · exact plain
  · intro later member inUse
    exact moved.polledRead later (List.mem_cons_of_mem _ member) ((sameUse _).mp inUse)
  · rw [fee]
    exact moved.fee
  · rw [taken, paid]
    rcases moved.filled with empty | filled
    · left
      omega
    · right
      omega
  · rw [paid]
    omega
  · rw [fee, taken]
    refine lt_of_le_of_lt ?_ moved.fits
    apply Nat.mul_le_mul
    · apply Nat.mul_le_mul_right
      rw [total_cons]
      omega
    · exact Nat.sub_le _ _

/-- The payments of some swaps, in parts of a basis point. -/
def payments (feeBps : Nat) (swaps : List Swap) : List Payment :=
  swaps.map (fun swap => ⟨swap.amountIn * (10000 - feeBps), swap.amountIn * 10000,
    Nat.mul_le_mul_left swap.amountIn (Nat.sub_le 10000 feeBps)⟩)

theorem payments_sum (feeBps : Nat) (swaps : List Swap) :
    ((payments feeBps swaps).map Payment.counted).sum = total swaps * (10000 - feeBps) := by
  induction swaps with
  | nil => simp [payments, total]
  | cons swap rest ih =>
      rw [payments, List.map_cons, List.map_cons, List.sum_cons, ← payments, ih, total_cons,
        Nat.add_mul]

theorem quotes_eq_outputs (cache : PoolStateCache) (pool : DexPool)
    (cached : cache.get address = some pool) (swaps : List Swap)
    (small : polled pool (!aToB) < 2 ^ 64) (moved : Moved aToB pool swaps) :
    quotes powf address aToB cache swaps =
      outputs (polled pool aToB * 10000) (polled pool (!aToB)) (payments pool.feeBps swaps) := by
  induction swaps generalizing cache pool with
  | nil => rfl
  | cons swap rest ih =>
      have part : swap.amountIn ≤ total (swap :: rest) := by
        rw [total_cons]
        exact Nat.le_add_right _ _
      have quote := quote_eq_output powf aToB pool swap (swap :: rest) List.mem_cons_self small moved
        swap.amountIn part
      have next := get_record powf address aToB cache swap pool cached
      rcases applySwapDelta_polled powf aToB pool swap.recordedAt swap.amountIn
        (pool.quote powf swap.quotedAt aToB swap.amountIn) moved.plain with
        ⟨-, fee, -, paid, taken⟩
      have held := moved.held
      rw [total_cons] at held
      have exactly : saturatingAdd64 (polled pool aToB) swap.amountIn =
          polled pool aToB + swap.amountIn := by
        rw [saturatingAdd64, u64Max]
        omega
      have later := ih (record powf address aToB cache swap) _ next
        (by rw [taken]; omega) (moved_record powf aToB pool swap rest moved _)
      have head : quoted powf address aToB cache swap =
          output (polled pool aToB * 10000) (polled pool (!aToB))
            (swap.amountIn * (10000 - pool.feeBps)) := by
        rw [quoted, cached]
        exact quote
      rw [quotes, head, later, fee, paid, taken, exactly, quote, Nat.add_mul]
      rfl

/-- The other pools: a record moves nothing their quote reads, which stays at the old
price. -/
theorem quote_unmoved (pool : DexPool) (now recordedAt : Instant) (amountIn amountOut later : Nat)
    (side : Bool) (noTicks : pool.orcaMeta = none)
    (unread : InUse pool now ∨
      (pool.meteoraMeta ≠ none ∧ 0 < pool.reserveA ∧ 0 < pool.reserveB ∧
        0 < (pool.applySwapDelta powf recordedAt amountIn amountOut aToB).reserveA ∧
        0 < (pool.applySwapDelta powf recordedAt amountIn amountOut aToB).reserveB)) :
    (pool.applySwapDelta powf recordedAt amountIn amountOut aToB).quote powf now side later =
      pool.quote powf now side later := by
  have same : ∃ reserveA reserveB lastUpdated,
      pool.applySwapDelta powf recordedAt amountIn amountOut aToB =
        { pool with reserveA := reserveA, reserveB := reserveB, lastUpdated := lastUpdated } := by
    rw [DexPool.applySwapDelta]
    cases aToB with
    | true =>
        by_cases whirlpool : pool.dexType = .orcaWhirlpool
        · simp [whirlpool, noTicks]
        · simp [whirlpool]
    | false =>
        by_cases whirlpool : pool.dexType = .orcaWhirlpool
        · simp [whirlpool, noTicks]
        · simp [whirlpool]
  rcases same with ⟨reserveA, reserveB, lastUpdated, same⟩
  rw [same] at unread ⊢
  rw [DexPool.quote, DexPool.quote, DexPool.effectiveReserves, DexPool.effectiveReserves]
  dsimp only
  rw [noTicks]
  rcases unread with inUse | ⟨bins, filledA, filledB, afterA, afterB⟩
  · have used : 0 < pool.reserveAOptimistic ∧ 0 < pool.reserveBOptimistic ∧
        pool.lastShredUpdate.elapsedSecs now < 10 := inUse
    rw [if_pos used, if_pos used]
  · rcases Option.ne_none_iff_exists'.mp bins with ⟨meteora, found⟩
    rw [found]
    split
    · rfl
    · dsimp only at afterA afterB ⊢
      rw [if_neg (by omega), if_neg (by omega)]

/-- While every quote reads the reserves a record moves, the swaps are quoted no more
than the one quote of their sum. -/
theorem split_quotes_le (cache : PoolStateCache) (pool : DexPool)
    (cached : cache.get address = some pool)
    (words : pool.reserveA < 2 ^ 64 ∧ pool.reserveB < 2 ^ 64) (swaps : List Swap)
    (followed : swaps.length ≤ 1 ∨ Moved aToB pool swaps) :
    (quotes powf address aToB cache swaps).sum ≤ quotedAtOnce powf address aToB cache swaps := by
  cases swaps with
  | nil => exact Nat.zero_le _
  | cons first rest =>
      rcases followed with single | moved
      · have alone : rest = [] := List.length_eq_zero_iff.mp (by simpa using single)
        subst alone
        exact le_of_eq (by simp [quotes, quotedAtOnce, total])
      · have small : polled pool (!aToB) < 2 ^ 64 := by
          cases aToB with
          | true => exact words.2
          | false => exact words.1
        have atOnce := quote_eq_output powf aToB pool first (first :: rest) List.mem_cons_self small
          moved (total (first :: rest)) (Nat.le_refl _)
        have parts := outputs_sum_le (polled pool aToB * 10000) (polled pool (!aToB))
          (payments pool.feeBps (first :: rest))
        rw [payments_sum] at parts
        rw [quotes_eq_outputs powf address aToB cache pool cached (first :: rest) small moved,
          quotedAtOnce, quoted, cached]
        dsimp only
        rw [atOnce]
        exact parts

end Run

def plainPowf (base _exponent : ℚ) : ℚ := base

/-- Reserves of 1000 each, in both copies. -/
def evenPool : DexPool :=
  { poolAddress := default, dexType := .raydiumAmmV4, tokenA := wsol, tokenB := usdc
    decimalsA := 9, decimalsB := 6, reserveA := 1000, reserveB := 1000
    reserveAOptimistic := 1000, reserveBOptimistic := 1000, lastShredUpdate := 0
    poolVaultABalance := 1000, poolVaultBBalance := 1000, marketVaultABalance := 0
    marketVaultBBalance := 0, lastUpdated := 0, feeBps := 25
    raydiumMeta := none, orcaMeta := none, meteoraMeta := none }

/-- One bin of 100 tokens at the price one. -/
def binPool : DexPool :=
  { evenPool with
    dexType := .meteoraDlmm
    meteoraMeta := some ⟨0, 1, default, default, ⟨0, 0, 0⟩, ⟨0⟩,
      (HashMap.empty : HashMap Int Meteora.MeteoraBinArray).insert 0 ⟨0, [⟨100, 100, 2 ^ 64⟩]⟩⟩ }

/-- Two swaps of the same amount, some seconds after the optimistic copy was written. -/
def twoSwaps (second amount : Nat) : List Swap :=
  [⟨second * 10 ^ 9, second * 10 ^ 9, amount⟩, ⟨second * 10 ^ 9, second * 10 ^ 9, amount⟩]

def cacheOf (pool : DexPool) : PoolStateCache := PoolStateCache.new.upsert pool

/-- Swaps of 100 in a constant-product pool with fresh optimistic reserves, and of 60 in
the bin. -/
theorem old_price_quoted_twice :
    (quotedAtOnce plainPowf default true (cacheOf evenPool) (twoSwaps 1 100) <
      (quotes plainPowf default true (cacheOf evenPool) (twoSwaps 1 100)).sum) ∧
    quotedAtOnce plainPowf default true (cacheOf binPool) (twoSwaps 20 60) <
      (quotes plainPowf default true (cacheOf binPool) (twoSwaps 20 60)).sum := by
  decide +kernel

/-- The same pool once the optimistic copy is too old to be read. -/
theorem split_quotes_le_evenPool :
    (quotes plainPowf default true (cacheOf evenPool) (twoSwaps 20 100)).sum ≤
      quotedAtOnce plainPowf default true (cacheOf evenPool) (twoSwaps 20 100) :=
  split_quotes_le plainPowf default true (cacheOf evenPool) evenPool rfl (by decide)
    (twoSwaps 20 100) (Or.inr (by decide +kernel))

end Helios.SplitQuotes
