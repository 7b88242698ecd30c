import Helios.CachedMeta
import Helios.Executability
import Helios.SeedBytes

/-! Which pools get the same hop accounts from cached metadata, and which records change a pool. -/

namespace Helios.RedisCache

open Fallible Orca TickSequence TickArrays TxBuilder

/-- Addresses whose seeds differ in the last one are different. -/
def Distinct (builder : TxBuilder) : Prop :=
  ∀ program text owner last other key,
    builder.findProgramAddress [text, owner, last] program = some key →
      builder.findProgramAddress [text, owner, other] program = some key → last = other

/-- The metadata is what the record gives back: no authority, the tick 0, the bin 0. -/
def KeepsAccounts (pool : DexPool) (aToB : Bool) : Prop :=
  match pool.dexType with
  | .raydiumAmmV4 => ∀ raydium, pool.raydiumMeta = some raydium → raydium.authority = default
  | .orcaWhirlpool => ∀ orca, pool.orcaMeta = some orca →
      tickArrayStartIndex orca.tickCurrentIndex orca.tickSpacing = 0
  | .meteoraDlmm => ∀ meteora, pool.meteoraMeta = some meteora →
      (meteoraBinArrayIndices meteora aToB).map seedIndex =
        (if aToB then [0, -1, -2] else [0, 1, 2]).map seedIndex
  | _ => True

theorem tryAddress_eq_ok (builder : TxBuilder) (what : String) (seeds : List (List UInt8))
    (program key : Pubkey) :
    builder.tryAddress what seeds program = .ok key ↔
      builder.findProgramAddress seeds program = some key := by
  rw [tryAddress]
  cases builder.findProgramAddress seeds program with
  | none => simp
  | some found => simp

/-! Tick arrays. -/

theorem orcaTickArray_injective (builder : TxBuilder) (distinct : Distinct builder)
    (whirlpool key : Pubkey) (start other : Int)
    (derived : builder.deriveOrcaTickArray whirlpool start = .ok key)
    (again : builder.deriveOrcaTickArray whirlpool other = .ok key) : start = other := by
  rw [deriveOrcaTickArray, tryAddress_eq_ok] at derived again
  exact startText_injective _ _ (distinct _ _ _ _ _ _ derived again)

/-- Only the first five arrays count. -/
theorem deriveOrcaTickArrays_five (builder : TxBuilder) (whirlpool : Pubkey) (start step : Int)
    (count : Nat) (enough : 5 ≤ count) :
    builder.deriveOrcaTickArrays whirlpool (consecutive start step count) =
      builder.deriveOrcaTickArrays whirlpool (consecutive start step 5) := by
  have five : ∃ first second third fourth fifth,
      consecutive start step 5 = [first, second, third, fourth, fifth] := by
    simp only [consecutive, List.range_succ_eq_map, List.range_zero, List.map_cons, List.map_nil]
    exact ⟨_, _, _, _, _, rfl⟩
  obtain ⟨first, second, third, fourth, fifth, shape⟩ := five
  have long : consecutive start step count =
      consecutive start step 5 ++ (consecutive start step count).drop 5 := by
    rw [← take_consecutive start step 5 count enough, List.take_append_drop]
  rw [long, shape]
  rfl

/-- The first of the derived arrays is the one at the start. -/
theorem deriveOrcaTickArrays_head (builder : TxBuilder) (whirlpool : Pubkey) (start step : Int)
    (count : Nat) (enough : 5 ≤ count) (arrays : List Pubkey × List Pubkey)
    (derived : builder.deriveOrcaTickArrays whirlpool (consecutive start step count) =
      .ok arrays) :
    ∃ key rest, arrays.1 = key :: rest ∧ builder.deriveOrcaTickArray whirlpool start = .ok key := by
  have primary := deriveOrcaTickArrays_primary builder whirlpool start step count enough arrays
    derived
  rw [List.mapM_cons, bind_eq_ok_iff] at primary
  obtain ⟨key, first, later⟩ := primary
  rw [bind_eq_ok_iff] at later
  obtain ⟨rest, -, same⟩ := later
  exact ⟨key, rest, (Except.ok.inj same).symm, first⟩

/-- What the builder derives depends on where the sequence starts only. -/
theorem deriveOrcaTickArrays_starts {F : Type} [FloatArith F] (powf : F → F → F)
    (builder : TxBuilder) (whirlpool : Pubkey) (orca : OrcaMetadata) (spaced : orca.tickSpacing ≠ 0)
    (amountIn feeBps : Nat) (aToB : Bool) :
    builder.deriveOrcaTickArrays whirlpool
        (orderedTickArrayStarts powf orca amountIn feeBps aToB) =
      builder.deriveOrcaTickArrays whirlpool
        (consecutive (tickArrayStartIndex orca.tickCurrentIndex orca.tickSpacing)
          (arrayStep aToB orca.tickSpacing) 5) := by
  obtain ⟨count, enough, shape⟩ := orderedTickArrayStarts_eq powf orca
    (Nat.pos_of_ne_zero spaced) amountIn feeBps aToB
  rw [shape, deriveOrcaTickArrays_five builder whirlpool _ _ count enough]

theorem tickArrayStartIndex_zero (tickSpacing : Nat) : tickArrayStartIndex 0 tickSpacing = 0 := by
  have none_ : ∀ divisor : Int, Int.ediv 0 divisor = 0 := Int.zero_ediv
  rw [tickArrayStartIndex, none_, none_, zero_mul, zero_mul, ite_self]

/-! Each DEX. -/

section Hops

variable {F : Type} (builder : TxBuilder) (ctx : HopContext F)

/-- The same hop with the pool the cache gives back. -/
def restoredHop : HopContext F := { ctx with pool := restored ctx.pool }

theorem raydium_keeps_iff (kind : ctx.pool.dexType = .raydiumAmmV4) (accounts : List AccountMeta)
    (built : builder.raydiumAccounts ctx = .ok accounts) :
    builder.raydiumAccounts (restoredHop ctx) = .ok accounts ↔
      KeepsAccounts ctx.pool ctx.aToB := by
  cases known : ctx.pool.raydiumMeta with
  | none =>
      rw [raydiumAccounts, known] at built
      cases built
  | some raydium =>
      have condition : KeepsAccounts ctx.pool ctx.aToB ↔ raydium.authority = default := by
        rw [KeepsAccounts, kind]
        simp only [known, Option.some.injEq, forall_eq']
      rw [raydiumAccounts, known] at built
      by_cases hydrated : marketAccountsKnown raydium = true
      · simp only [hydrated, if_true, Except.ok.injEq] at built
        have again : marketAccountsKnown
            { raydium with authority := default, nonce := 0, targetOrders := default } = true :=
          hydrated
        rw [condition, raydiumAccounts, restoredHop, restored_raydium ctx.pool kind raydium known]
        simp only [again, if_true, Except.ok.injEq]
        rw [← built]
        simp only [List.cons.injEq, true_and, and_true, AccountMeta.newReadonly,
          AccountMeta.mk.injEq]
        exact eq_comm
      · simp only [hydrated] at built
        cases built

theorem orca_keeps [FloatArith F] (powf : F → F → F) (kind : ctx.pool.dexType = .orcaWhirlpool)
    (orca : OrcaMetadata) (known : ctx.pool.orcaMeta = some orca) (spaced : orca.tickSpacing ≠ 0)
    (start : tickArrayStartIndex orca.tickCurrentIndex orca.tickSpacing = 0) :
    builder.orcaAccounts powf (restoredHop ctx) = builder.orcaAccounts powf ctx := by
  rw [orcaAccounts, orcaAccounts, restoredHop, restored_orca ctx.pool kind orca known, known]
  simp only [spaced, if_false, withoutMetadata]
  rw [deriveOrcaTickArrays_starts powf builder _ orca spaced, start,
    deriveOrcaTickArrays_starts powf builder _ { orca with
      liquidity := 0, sqrtPrice := 0, tickCurrentIndex := 0, tickArrays := HashMap.empty } spaced,
    tickArrayStartIndex_zero]

theorem orca_start [FloatArith F] (powf : F → F → F) (distinct : Distinct builder)
    (kind : ctx.pool.dexType = .orcaWhirlpool)
    (orca : OrcaMetadata) (known : ctx.pool.orcaMeta = some orca) (accounts : List AccountMeta)
    (built : builder.orcaAccounts powf ctx = .ok accounts)
    (again : builder.orcaAccounts powf (restoredHop ctx) = .ok accounts) :
    tickArrayStartIndex orca.tickCurrentIndex orca.tickSpacing = 0 := by
  rw [orcaAccounts, restoredHop, restored_orca ctx.pool kind orca known] at again
  rw [orcaAccounts, known] at built
  by_cases spaced : orca.tickSpacing = 0
  · simp only [spaced, if_true] at built
    cases built
  simp only [spaced, if_false, withoutMetadata, bind_eq_ok_iff] at built again
  obtain ⟨ownerA, _, ownerB, _, arrays, derived, _, _, oracle, _, listed⟩ := built
  obtain ⟨ownerA', _, ownerB', _, arrays', derived', _, _, oracle', _, listed'⟩ := again
  rw [deriveOrcaTickArrays_starts powf builder _ orca spaced] at derived
  rw [deriveOrcaTickArrays_starts powf builder _ { orca with
      liquidity := 0, sqrtPrice := 0, tickCurrentIndex := 0, tickArrays := HashMap.empty } spaced,
    tickArrayStartIndex_zero] at derived'
  obtain ⟨key, rest, primary, first⟩ := deriveOrcaTickArrays_head builder _ _ _ 5 (by norm_num)
    arrays derived
  obtain ⟨key', rest', primary', first'⟩ := deriveOrcaTickArrays_head builder _ _ _ 5
    (by norm_num) arrays' derived'
  have same := (Except.ok.inj listed).trans (Except.ok.inj listed').symm
  rw [primary, primary'] at same
  simp only [List.map_cons, List.cons_append, List.nil_append, List.cons.injEq, AccountMeta.new,
    AccountMeta.mk.injEq, and_true] at same
  have keys : key = key' := by tauto
  rw [← keys] at first'
  exact orcaTickArray_injective builder distinct _ _ _ _ first first'

/-- What the indices are once the bin arrays and the active bin are gone. -/
theorem restored_indices (meteora : MeteoraMetadata) (aToB : Bool) :
    meteoraBinArrayIndices { meteora with
      activeId := 0, parameters := ⟨0, 0, 0⟩, vParameters := ⟨0⟩, binArrays := HashMap.empty }
        aToB = if aToB then [0, -1, -2] else [0, 1, 2] := by
  have none_ : (HashMap.empty : HashMap Int Meteora.MeteoraBinArray).keys = [] := rfl
  cases aToB with
  | false => simp [meteoraBinArrayIndices, none_, meteoraBinIdToArrayIndex]
  | true => simp [meteoraBinArrayIndices, none_, meteoraBinIdToArrayIndex]

theorem binArray_seed (lbPair : Pubkey) :
    builder.deriveMeteoraBinArray lbPair = (fun index => builder.tryAddress "Meteora bin array"
      [seedText "bin_array", lbPair.toBytes, Machine.leBytes 8 index]
      DexPrograms.meteoraDlmm) ∘ seedIndex := rfl

theorem binArray_injective (distinct : Distinct builder) (lbPair : Pubkey) (index other : Int)
    (key : Pubkey) (derived : builder.deriveMeteoraBinArray lbPair index = .ok key)
    (again : builder.deriveMeteoraBinArray lbPair other = .ok key) :
    seedIndex index = seedIndex other := by
  rw [deriveMeteoraBinArray, tryAddress_eq_ok] at derived again
  exact indexBytes_injective index other (distinct _ _ _ _ _ _ derived again)

theorem meteora_keeps (kind : ctx.pool.dexType = .meteoraDlmm)
    (meteora : MeteoraMetadata) (known : ctx.pool.meteoraMeta = some meteora)
    (indices : (meteoraBinArrayIndices meteora ctx.aToB).map seedIndex =
      (if ctx.aToB then [0, -1, -2] else [0, 1, 2]).map seedIndex) :
    builder.meteoraAccounts (restoredHop ctx) = builder.meteoraAccounts ctx := by
  rw [meteoraAccounts, meteoraAccounts, restoredHop, restored_meteora ctx.pool kind meteora known,
    known]
  simp only [restored_indices, withoutMetadata]
  rw [binArray_seed, ← List.mapM_map, ← List.mapM_map, indices]

theorem meteora_indices (distinct : Distinct builder) (kind : ctx.pool.dexType = .meteoraDlmm)
    (meteora : MeteoraMetadata) (known : ctx.pool.meteoraMeta = some meteora)
    (accounts : List AccountMeta) (built : builder.meteoraAccounts ctx = .ok accounts)
    (again : builder.meteoraAccounts (restoredHop ctx) = .ok accounts) :
    (meteoraBinArrayIndices meteora ctx.aToB).map seedIndex =
      (if ctx.aToB then [0, -1, -2] else [0, 1, 2]).map seedIndex := by
  rw [meteoraAccounts, restoredHop, restored_meteora ctx.pool kind meteora known] at again
  rw [meteoraAccounts, known] at built
  simp only [restored_indices, withoutMetadata, bind_eq_ok_iff] at built again
  obtain ⟨binArrays, derived, oracle, _, listed⟩ := built
  obtain ⟨binArrays', derived', oracle', _, listed'⟩ := again
  have same := (Except.ok.inj listed).trans (Except.ok.inj listed').symm
  have writable : Function.Injective (fun binArray : Pubkey => AccountMeta.new binArray false) := by
    intro key other equal
    cases equal
    rfl
  have keys : binArrays = binArrays' := by
    apply writable.list_map
    simp only [List.cons_append, List.nil_append, List.cons.injEq] at same
    tauto
  rw [← keys] at derived'
  exact mapM_separates _ seedIndex (fun index other key => binArray_injective builder distinct
    ctx.hop.pool index other key) _ _ _ derived derived'

end Hops

/-! Records of another pool. -/

/-- The record is of another DEX or of other tokens, or of the same ones the other way round. -/
def Differs (pool : DexPool) (record : CachedPoolMeta) : Prop :=
  record.dexType ≠ pool.dexType.debug ∨
    (record.tokenA, record.tokenB) ≠ (pool.tokenA.display, pool.tokenB.display)

/-- The pool has its metadata, or the record has none for its DEX. -/
def NothingToFill (pool : DexPool) (record : CachedPoolMeta) : Prop :=
  match pool.dexType with
  | .raydiumAmmV4 => pool.raydiumMeta ≠ none ∨ record.vaultA = none
  | .orcaWhirlpool =>
      match pool.orcaMeta with
      | none => record.orcaVaultA = none
      | some orca => orca.tickSpacing = 0 →
          keyOf record.orcaVaultA = orca.tokenVaultA ∧
            keyOf record.orcaVaultB = orca.tokenVaultB ∧ record.orcaTickSpacing.getD 0 = 0
  | .meteoraDlmm => pool.meteoraMeta ≠ none ∨ record.meteoraVaultA = none
  | _ => True

theorem applyCachedMeta_eq_iff (pool : DexPool) (record : CachedPoolMeta) :
    applyCachedMeta pool record = pool ↔ NothingToFill pool record := by
  rw [applyCachedMeta, NothingToFill]
  cases kind : pool.dexType with
  | raydiumAmmV4 =>
      simp only
      by_cases fills : pool.raydiumMeta.isNone ∧ record.vaultA.isSome
      · rw [if_pos fills]
        constructor
        · intro same
          have filled := congrArg DexPool.raydiumMeta same
          rw [Option.isNone_iff_eq_none.mp fills.1] at filled
          cases filled
        · intro nothing
          rcases nothing with present | absent
          · exact absurd (Option.isNone_iff_eq_none.mp fills.1) present
          · rw [absent] at fills
            cases fills.2
      · rw [if_neg fills]
        rw [Option.isNone_iff_eq_none, Option.isSome_iff_ne_none] at fills
        tauto
  | orcaWhirlpool =>
      cases known : pool.orcaMeta with
      | none =>
          simp only
          by_cases cached : record.orcaVaultA.isSome
          · rw [if_pos cached]
            constructor
            · intro same
              have filled := congrArg DexPool.orcaMeta same
              rw [known] at filled
              cases filled
            · intro absent
              rw [absent] at cached
              cases cached
          · rw [if_neg cached]
            rw [Option.isSome_iff_ne_none] at cached
            tauto
      | some orca =>
          simp only
          by_cases unspaced : orca.tickSpacing = 0
          · rw [if_pos unspaced]
            constructor
            · intro same _
              have filled := congrArg DexPool.orcaMeta same
              rw [known] at filled
              have fields := Option.some.inj filled
              refine ⟨congrArg OrcaMetadata.tokenVaultA fields,
                congrArg OrcaMetadata.tokenVaultB fields, ?_⟩
              exact (congrArg OrcaMetadata.tickSpacing fields).trans unspaced
            · intro nothing
              obtain ⟨vaultA, vaultB, spacing⟩ := nothing unspaced
              rw [vaultA, vaultB, spacing, ← unspaced, ← known, ← kind]
          · rw [if_neg unspaced]
            tauto
  | meteoraDlmm =>
      simp only
      by_cases fills : pool.meteoraMeta.isNone ∧ record.meteoraVaultA.isSome
      · rw [if_pos fills]
        constructor
        · intro same
          have filled := congrArg DexPool.meteoraMeta same
          rw [Option.isNone_iff_eq_none.mp fills.1] at filled
          cases filled
        · intro nothing
          rcases nothing with present | absent
          · exact absurd (Option.isNone_iff_eq_none.mp fills.1) present
          · rw [absent] at fills
            cases fills.2
      · rw [if_neg fills]
        rw [Option.isNone_iff_eq_none, Option.isSome_iff_ne_none] at fills
        tauto
  | _ => exact ⟨fun _ => trivial, fun _ => rfl⟩

section RoundTrip

variable {F : Type} [FloatArith F] (powf : F → F → F) (builder : TxBuilder) (ctx : HopContext F)
  (accounts : List AccountMeta)

theorem hopAccounts_keeps (built : builder.hopAccounts powf ctx.pool.dexType ctx = .ok accounts)
    (keeps : KeepsAccounts ctx.pool ctx.aToB) :
    builder.hopAccounts powf ctx.pool.dexType (restoredHop ctx) = .ok accounts := by
  cases kind : ctx.pool.dexType with
  | raydiumAmmV4 =>
      rw [kind] at built
      exact (raydium_keeps_iff builder ctx kind accounts built).mpr keeps
  | orcaWhirlpool =>
      rw [kind] at built
      rw [KeepsAccounts, kind] at keeps
      cases known : ctx.pool.orcaMeta with
      | none =>
          rw [hopAccounts, orcaAccounts, known] at built
          cases built
      | some orca =>
          by_cases spaced : orca.tickSpacing = 0
          · rw [hopAccounts, orcaAccounts, known] at built
            simp only [spaced, if_true] at built
            cases built
          · exact (orca_keeps builder ctx powf kind orca known spaced (keeps orca known)).trans built
  | meteoraDlmm =>
      rw [kind] at built
      rw [KeepsAccounts, kind] at keeps
      cases known : ctx.pool.meteoraMeta with
      | none =>
          rw [hopAccounts, meteoraAccounts, known] at built
          cases built
      | some meteora =>
          exact (meteora_keeps builder ctx kind meteora known (keeps meteora known)).trans built
  | pumpSwap =>
      rw [kind] at built
      have tokens : restored ctx.pool = withoutMetadata ctx.pool := by
        rw [restored, applyCachedMeta]
        have same : (withoutMetadata ctx.pool).dexType = .pumpSwap := kind
        rw [same]
      rw [restoredHop, tokens]
      exact built
  | _ =>
      rw [kind] at built
      cases built

theorem keeps_of_hopAccounts (distinct : Distinct builder)
    (built : builder.hopAccounts powf ctx.pool.dexType ctx = .ok accounts)
    (again : builder.hopAccounts powf ctx.pool.dexType (restoredHop ctx) = .ok accounts) :
    KeepsAccounts ctx.pool ctx.aToB := by
  cases kind : ctx.pool.dexType with
  | raydiumAmmV4 =>
      rw [kind] at built again
      exact (raydium_keeps_iff builder ctx kind accounts built).mp again
  | orcaWhirlpool =>
      rw [kind] at built again
      rw [KeepsAccounts, kind]
      intro orca known
      exact orca_start builder ctx powf distinct kind orca known accounts built again
  | meteoraDlmm =>
      rw [kind] at built again
      rw [KeepsAccounts, kind]
      intro meteora known
      exact meteora_indices builder ctx distinct kind meteora known accounts built again
  | _ =>
      rw [KeepsAccounts, kind]
      trivial

/-- Which hop accounts survive the cache, and which foreign records leave a pool alone. -/
theorem round_trip_iff (built : builder.hopAccounts powf ctx.pool.dexType ctx = .ok accounts)
    (pool : DexPool) (record : CachedPoolMeta) :
    (KeepsAccounts ctx.pool ctx.aToB →
      builder.hopAccounts powf ctx.pool.dexType (restoredHop ctx) = .ok accounts) ∧
    (Distinct builder →
      builder.hopAccounts powf ctx.pool.dexType (restoredHop ctx) = .ok accounts →
        KeepsAccounts ctx.pool ctx.aToB) ∧
    ((Differs pool record → applyCachedMeta pool record = pool) ↔
      ¬ Differs pool record ∨ NothingToFill pool record) := by
  refine ⟨hopAccounts_keeps powf builder ctx accounts built,
    fun distinct => keeps_of_hopAccounts powf builder ctx accounts distinct built, ?_⟩
  rw [applyCachedMeta_eq_iff]
  exact imp_iff_not_or

end RoundTrip

/-! The failing pools. -/

/-- A market pool of the token and WSOL, with an authority of its own. -/
def marketPool : DexPool := Executability.wsolPool 1 (10 ^ 13) (.ofNat 30)

def hopOf (pool : DexPool) : HopContext ℚ where
  hop := ⟨pool.poolAddress, .ofNat 3, pool.tokenB, pool.tokenA, 0, 0⟩
  pool := pool
  amountIn := 10 ^ 6
  aToB := false
  progIn := tokenProgramId
  progOut := tokenProgramId
  userSource := .ofNat 4
  userDestination := .ofNat 5

/-- The record of the same pool with its tokens the other way round. -/
def turnedRecord : CachedPoolMeta :=
  poolToCachedMeta { marketPool with tokenA := marketPool.tokenB, tokenB := marketPool.tokenA }

def firstArgument (base _ : ℚ) : ℚ := base

theorem authority_lost_and_turned_record_taken :
    (¬ ∀ (builder : TxBuilder) (ctx : HopContext ℚ) (accounts : List AccountMeta),
      builder.hopAccounts firstArgument ctx.pool.dexType ctx = .ok accounts →
        builder.hopAccounts firstArgument ctx.pool.dexType (restoredHop ctx) = .ok accounts) ∧
      ¬ ∀ (pool : DexPool) (record : CachedPoolMeta),
        Differs pool record → applyCachedMeta pool record = pool := by
  constructor
  · intro all
    have kind : (hopOf marketPool).pool.dexType = .raydiumAmmV4 := rfl
    have built := eq_ok_of_isSome (Executability.constantBuilder.hopAccounts firstArgument
      (hopOf marketPool).pool.dexType (hopOf marketPool)) [] (by decide +kernel)
    have restored := all Executability.constantBuilder (hopOf marketPool) _ built
    rw [kind, hopAccounts] at built restored
    have keeps := (raydium_keeps_iff Executability.constantBuilder (hopOf marketPool) kind _
      built).mp restored
    have lost := keeps (Executability.raydiumWithMarket (.ofNat 30)) rfl
    exact absurd lost (by decide)
  · intro all
    have turned : Differs (withoutMetadata marketPool) turnedRecord := by
      right
      decide +kernel
    have same := (applyCachedMeta_eq_iff (withoutMetadata marketPool) turnedRecord).mp
      (all _ _ turned)
    rcases same with present | absent
    · exact present rfl
    · cases absent

/-- A DLMM pool in its bin 5, with no bin array cached. -/
def freshDlmm : DexPool :=
  { marketPool with
    poolAddress := .ofNat 40
    dexType := .meteoraDlmm
    raydiumMeta := none
    meteoraMeta := some {
      activeId := 5
      binStep := 10
      tokenVaultA := .ofNat 41
      tokenVaultB := .ofNat 42
      parameters := ⟨0, 0, 0⟩
      vParameters := ⟨0⟩
      binArrays := HashMap.empty } }

/-- The addresses that the hop of the pool derives. -/
def derivedAddresses : List (List (List UInt8) × Pubkey) :=
  [([seedText "bin_array", freshDlmm.poolAddress.toBytes, Machine.leBytes 8 0], .ofNat 50),
    ([seedText "bin_array", freshDlmm.poolAddress.toBytes, Machine.leBytes 8 1], .ofNat 51),
    ([seedText "bin_array", freshDlmm.poolAddress.toBytes, Machine.leBytes 8 2], .ofNat 52),
    ([seedText "oracle", freshDlmm.poolAddress.toBytes], .ofNat 53)]

def tableBuilder : TxBuilder := ⟨.ofNat 7, .ofNat 8, fun seeds _ => derivedAddresses.lookup seeds⟩

theorem mem_of_lookup {α β : Type} [BEq α] [LawfulBEq α] (table : List (α × β)) (key : α)
    (value : β) (found : table.lookup key = some value) : (key, value) ∈ table := by
  obtain ⟨before, after, shape, _⟩ := List.lookup_eq_some_iff.mp found
  rw [shape]
  exact List.mem_append_right _ List.mem_cons_self

theorem tableBuilder_distinct : Distinct tableBuilder := by
  intro program text owner last other key found again
  have distinct : (derivedAddresses.map Prod.snd).Nodup := by decide +kernel
  have same := List.inj_on_of_nodup_map distinct (mem_of_lookup _ _ _ found)
    (mem_of_lookup _ _ _ again) rfl
  cases same
  rfl

theorem freshDlmm_keeps : KeepsAccounts freshDlmm false := by
  intro meteora known
  cases known
  decide +kernel

theorem fresh_dlmm_survives : ∃ accounts,
    tableBuilder.hopAccounts firstArgument .meteoraDlmm (hopOf freshDlmm) = .ok accounts ∧
      tableBuilder.hopAccounts firstArgument .meteoraDlmm (restoredHop (hopOf freshDlmm)) =
        .ok accounts ∧
      KeepsAccounts freshDlmm false ∧ applyCachedMeta freshDlmm turnedRecord = freshDlmm := by
  have built := eq_ok_of_isSome (tableBuilder.hopAccounts firstArgument .meteoraDlmm
    (hopOf freshDlmm)) [] (by decide +kernel)
  obtain ⟨keeps, kept, record⟩ := round_trip_iff firstArgument tableBuilder (hopOf freshDlmm) _
    built freshDlmm turnedRecord
  have same := keeps freshDlmm_keeps
  have turned : Differs freshDlmm turnedRecord := Or.inl (by decide)
  have present : NothingToFill freshDlmm turnedRecord := Or.inl (Option.some_ne_none _)
  exact ⟨_, built, same, kept tableBuilder_distinct same, record.mpr (Or.inr present) turned⟩

end Helios.RedisCache
