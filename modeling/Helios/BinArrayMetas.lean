import Helios.BinTraversal
import Helios.MetadataRoundTrip
import Helios.MeteoraSound
import Helios.VenueSwap

/-! The bin-array accounts of a DLMM swap: the program takes those on the side of the swap, from
the active array outward. The two builders list them separately. -/

namespace Helios.BinArrayMetas

open Fallible Meteora TxBuilder VenueSwap

/-- The cached arrays on the side of the swap, each once, from the active one outward. -/
structure Outward (meteora : MeteoraMetadata) (aToB : Bool) (indices : List Int) : Prop where
  mem_iff : ∀ index, index ∈ indices ↔
    index ∈ meteora.binArrays.keys ∧ AtOrAhead aToB (meteora.activeId / 70) index
  ordered : indices.Pairwise (Ahead aToB)

/-- The map gives out the arrays of this side only, and in this order. -/
def YieldsOutward (meteora : MeteoraMetadata) (aToB : Bool) : Prop :=
  (∀ index ∈ meteora.binArrays.keys, AtOrAhead aToB (meteora.activeId / 70) index) ∧
    meteora.binArrays.keys.Pairwise (Ahead aToB)

/-- The account of a bin array. -/
def ArrayMeta (builder : TxBuilder) (lbPair : Pubkey) (index : Int) (account : AccountMeta) :
    Prop :=
  ∃ key, builder.deriveMeteoraBinArray lbPair index = .ok key ∧ account = .new key false

/-- The arrays a quote of this metadata takes liquidity from. -/
def drainedArrays (meteora : MeteoraMetadata) (aToB : Bool) (amountIn : Nat) : List Int :=
  (swapFills amountIn aToB meteora.activeId meteora.binStep meteora.parameters meteora.vParameters
    meteora.binArrays).map (fun fill => fill.1 / 70)

/-- Both builders append the accounts of the arrays that the swap may cross. Their fixed accounts
come first. -/
def SameBinArrays (builder : TxBuilder) (lbPair : Pubkey) (meteora : MeteoraMetadata)
    (aToB : Bool) (heliosAccounts directAccounts : List AccountMeta) : Prop :=
  heliosAccounts.drop 13 = directAccounts.drop 11 ∧
    ∃ indices, Outward meteora aToB indices ∧
      (∀ amountIn, ∀ index ∈ drainedArrays meteora aToB amountIn, index ∈ indices) ∧
      List.Forall₂ (ArrayMeta builder lbPair) indices (heliosAccounts.drop 13)

/-- One array at least is cached on the side of the swap. -/
def CachedAhead (meteora : MeteoraMetadata) (aToB : Bool) : Prop :=
  ∃ index ∈ meteora.binArrays.keys, AtOrAhead aToB (meteora.activeId / 70) index

/-- The cached arrays have addresses of their own. -/
def OwnAddresses (builder : TxBuilder) (lbPair : Pubkey) (meteora : MeteoraMetadata) : Prop :=
  ∀ index ∈ meteora.binArrays.keys, ∀ other ∈ meteora.binArrays.keys, ∀ key,
    builder.deriveMeteoraBinArray lbPair index = .ok key →
      builder.deriveMeteoraBinArray lbPair other = .ok key → index = other

theorem Ahead.asymm {aToB : Bool} {first second : Int} (ahead : Ahead aToB first second) :
    ¬ Ahead aToB second first := by
  cases aToB with
  | true => exact lt_asymm ahead
  | false => exact lt_asymm ahead

section Arrays

variable (meteora : MeteoraMetadata) (aToB : Bool)

/-- There is only one such list. -/
theorem Outward.unique {indices others : List Int} (here : Outward meteora aToB indices)
    (there : Outward meteora aToB others) : indices = others := by
  have same : indices.Perm others := by
    apply (List.perm_ext_iff_of_nodup (here.ordered.imp Ahead.ne) (there.ordered.imp Ahead.ne)).mpr
    intro index
    rw [here.mem_iff, there.mem_iff]
  exact same.eq_of_pairwise (fun _ _ _ _ ahead back => absurd back (Ahead.asymm ahead)) here.ordered
    there.ordered

theorem outward_keys_iff :
    Outward meteora aToB meteora.binArrays.keys ↔ YieldsOutward meteora aToB := by
  constructor
  · intro outward
    exact ⟨fun index member => ((outward.mem_iff index).mp member).2, outward.ordered⟩
  · intro ⟨ahead, ordered⟩
    refine ⟨fun index => ?_, ordered⟩
    rw [and_iff_left_of_imp (ahead index)]

/-- What the on-chain path lists. -/
theorem outward_meteoraBinArrayIndices (some_ : CachedAhead meteora aToB) :
    Outward meteora aToB (meteoraBinArrayIndices meteora aToB) := by
  have current : meteoraBinIdToArrayIndex meteora.activeId = meteora.activeId / 70 :=
    binIdToBinArrayIndex_eq meteora.activeId
  have side : ∀ index, (if aToB then decide (index ≤ meteora.activeId / 70)
      else decide (meteora.activeId / 70 ≤ index)) = true ↔
      AtOrAhead aToB (meteora.activeId / 70) index := by
    intro index
    cases aToB with
    | true =>
        rw [if_pos rfl, decide_eq_true_iff, le_iff_eq_or_lt]
        rfl
    | false =>
        rw [if_neg Bool.false_ne_true, decide_eq_true_iff, le_iff_eq_or_lt, eq_comm]
        rfl
  rw [meteoraBinArrayIndices, current]
  generalize kept_eq : (meteora.binArrays.keys.filter _).mergeSort _ = kept
  have member : ∀ index, index ∈ kept ↔
      index ∈ meteora.binArrays.keys ∧ AtOrAhead aToB (meteora.activeId / 70) index := by
    intro index
    rw [← kept_eq, List.mem_mergeSort, List.mem_filter, side]
  have rising : kept.Pairwise (· < ·) := by
    have once : kept.Nodup := by
      rw [← kept_eq]
      exact ((List.mergeSort_perm _ _).nodup_iff).mpr
        ((AList.keys_nodup meteora.binArrays).filter _)
    have sorted : kept.Pairwise (· ≤ ·) := by
      rw [← kept_eq]
      exact List.pairwise_mergeSort' (· ≤ ·) _
    exact (sorted.and once).imp (fun ordered => lt_of_le_of_ne ordered.1 ordered.2)
  rcases some_ with ⟨index, cached, ahead⟩
  have filled : kept ≠ [] := List.ne_nil_of_mem ((member index).mpr ⟨cached, ahead⟩)
  cases aToB with
  | true =>
      rw [if_pos rfl, if_neg (mt List.reverse_eq_nil_iff.mp filled)]
      refine ⟨fun other => ?_, ?_⟩
      · rw [List.mem_reverse, member]
      · exact List.pairwise_reverse.mpr rising
  | false =>
      rw [if_neg Bool.false_ne_true, if_neg filled]
      exact ⟨member, rising⟩

end Arrays

section Quote

variable (swapForY : Bool) (binStep : Nat) (parameters : MeteoraStaticParameters)
  (vParameters : MeteoraVariableParameters) (binArrays : HashMap Int MeteoraBinArray)

/-- A quote takes liquidity from bins it comes by. -/
theorem quoteFills_visited (fuel left : Nat) (binId : Int) :
    ∀ fill ∈ quoteFills swapForY binStep parameters vParameters binArrays fuel left binId,
      fill.1 ∈ visitedIds swapForY binArrays fuel binId := by
  induction fuel generalizing left binId with
  | zero => exact fun _ member => nomatch member
  | succ fuel ih =>
      intro fill member
      rw [quoteFills] at member
      split at member
      · cases member
      rw [visitedIds]
      cases found : getBin binArrays binId with
      | none =>
          rw [found] at member
          dsimp only at member ⊢
          cases next : nextArray swapForY binArrays binId with
          | none =>
              rw [next] at member
              cases member
          | some index =>
              rw [next] at member
              exact ih left _ fill member
      | some bin =>
          rw [found] at member
          dsimp only at member ⊢
          split at member
          · exact List.mem_cons_of_mem _ (ih left _ fill member)
          · rcases List.mem_cons.mp member with rfl | later
            · exact List.mem_cons_self
            · exact List.mem_cons_of_mem _ (ih _ _ fill later)

end Quote

/-- The arrays behind a quote are cached, on the side of the swap. -/
theorem drainedArrays_ahead (meteora : MeteoraMetadata) (aToB : Bool) (amountIn : Nat)
    (index : Int) (drained : index ∈ drainedArrays meteora aToB amountIn) :
    index ∈ meteora.binArrays.keys ∧ AtOrAhead aToB (meteora.activeId / 70) index := by
  rcases List.mem_map.mp drained with ⟨fill, member, rfl⟩
  rw [swapFills] at member
  split at member
  · cases member
  have met := quoteFills_visited _ _ _ _ _ _ _ _ fill member
  have cached := visitedIds_cached _ _ _ _ _ met
  have ahead := (visitedIds_ahead _ _ _ _).1 _ met
  exact ⟨array_cached meteora.binArrays fill.1 cached, AtOrAhead.array ahead⟩

section Builders

open CrossDex FlashLoans FlashSequence RouteExecution

variable {F : Type} [FloatArith F] (powf : F → F → F) (env : FlashEnv) (builder : TxBuilder)

omit [FloatArith F] in
theorem address_eq_ok (seeds : List (List UInt8)) (program key : Pubkey) :
    builder.address seeds program = .ok key ↔
      builder.findProgramAddress seeds program = some key := by
  rw [address]
  cases builder.findProgramAddress seeds program with
  | none => simp
  | some found => simp

omit [FloatArith F] in
theorem arrayMeta_unique (lbPair : Pubkey) : Relator.RightUnique (ArrayMeta builder lbPair) := by
  rintro index _ _ ⟨key, derived, rfl⟩ ⟨again, derivedAgain, rfl⟩
  rw [derived] at derivedAgain
  cases derivedAgain
  rfl

omit [FloatArith F] in
theorem arrayMetas_of_mapM (lbPair : Pubkey) (derive : Int → Except BuildError Pubkey)
    (derives : ∀ index key, derive index = .ok key →
      builder.deriveMeteoraBinArray lbPair index = .ok key)
    (indices : List Int) (keys : List Pubkey) (done : indices.mapM derive = .ok keys) :
    List.Forall₂ (ArrayMeta builder lbPair) indices (keys.map (fun key => .new key false)) := by
  rw [List.forall₂_map_right_iff]
  exact (mapM_forall₂ derive indices keys done).imp
    (fun index key here => ⟨key, derives index key here, rfl⟩)

/-- The list that the on-chain path appends. -/
theorem heliosArrays_of_ok (cache : PoolStateCache) (tokenPrograms : HashMap Pubkey Pubkey)
    (hopIdx amountIn : Nat) (hop : Hop F) (pool : DexPool) (cached : cache.get hop.pool = some pool)
    (kind : DexType.fromProgramId hop.dexProgram = .meteoraDlmm) (hopBuilt : BuiltHop)
    (done : builder.buildHop powf cache tokenPrograms hopIdx amountIn hop = .ok hopBuilt) :
    ∃ meteora, pool.meteoraMeta = some meteora ∧
      List.Forall₂ (ArrayMeta builder hop.pool)
        (meteoraBinArrayIndices meteora (decide (hop.tokenIn = pool.tokenA)))
        (hopBuilt.accounts.drop 13) := by
  simp only [buildHop, cached, kind, bind_eq_ok_iff, hopAccounts] at done
  rcases done with ⟨_, _, source, _, destination, _, accounts, listed, data, _, same⟩
  cases same
  cases known : pool.meteoraMeta with
  | none =>
      simp only [meteoraAccounts, known] at listed
      cases listed
  | some meteora =>
      simp only [meteoraAccounts, known, bind_eq_ok_iff] at listed
      rcases listed with ⟨binArrays, derived, oracle, _, shape⟩
      cases shape
      exact ⟨meteora, rfl, arrayMetas_of_mapM builder hop.pool _ (fun _ _ here => here) _ _ derived⟩

omit [FloatArith F] in
/-- The list that the direct path appends. -/
theorem directArrays_of_ok (cache : PoolStateCache) (tokenPrograms : HashMap Pubkey Pubkey)
    (amount : Nat) (hop : Hop F) (pool : DexPool) (cached : cache.get hop.pool = some pool)
    (kind : DexType.fromProgramId hop.dexProgram = .meteoraDlmm) (meteora : MeteoraMetadata)
    (known : pool.meteoraMeta = some meteora) (swapIx : Instruction)
    (done : builder.buildDirectHop cache tokenPrograms amount hop = .ok swapIx) :
    List.Forall₂ (ArrayMeta builder hop.pool) meteora.binArrays.keys
      (swapIx.accounts.drop 11) := by
  rcases buildDirectHop_ok builder cache tokenPrograms amount hop pool cached swapIx done with
    ⟨ctx, sameHop, samePool, -, -, direct⟩
  rw [kind, directIx] at direct
  simp only [meteoraDirectIx, samePool, known, liftBuild, bind_eq_ok_iff, mapError_eq_ok_iff]
    at direct
  rcases direct with ⟨binArrays, derived, shape⟩
  cases shape
  rw [sameHop] at derived
  refine arrayMetas_of_mapM builder hop.pool _ (fun index key here => ?_) _ _ derived
  rw [deriveMeteoraBinArray, RedisCache.tryAddress_eq_ok]
  exact (address_eq_ok builder _ _ _).mp here

omit [FloatArith F] in
/-- Lists of cached arrays are told apart by their accounts. -/
theorem indices_eq_of_metas (lbPair : Pubkey) (meteora : MeteoraMetadata)
    (own : OwnAddresses builder lbPair meteora) (indices others : List Int)
    (metas : List AccountMeta) (cached : ∀ index ∈ indices, index ∈ meteora.binArrays.keys)
    (othersCached : ∀ other ∈ others, other ∈ meteora.binArrays.keys)
    (here : List.Forall₂ (ArrayMeta builder lbPair) indices metas)
    (there : List.Forall₂ (ArrayMeta builder lbPair) others metas) : indices = others := by
  induction here generalizing others with
  | nil =>
      cases there
      rfl
  | @cons index account indices metas first rest ih =>
      cases there with
      | @cons other _ others _ second later =>
          rcases first with ⟨key, derived, rfl⟩
          rcases second with ⟨again, derivedAgain, same⟩
          cases same
          have head := own index (cached index List.mem_cons_self) other
            (othersCached other List.mem_cons_self) key derived derivedAgain
          have tail := ih others (fun index member => cached index (List.mem_cons_of_mem _ member))
            (fun other member => othersCached other (List.mem_cons_of_mem _ member)) later
          rw [head, tail]

/-- One hop. -/
theorem sameBinArrays_iff_of_hop (cache : PoolStateCache) (tokenPrograms : HashMap Pubkey Pubkey)
    (hop : Hop F) (pool : DexPool) (cached : cache.get hop.pool = some pool)
    (kind : DexType.fromProgramId hop.dexProgram = .meteoraDlmm)
    (hopIdx heliosSpends directSpends : Nat) (hopBuilt : BuiltHop)
    (helios : builder.buildHop powf cache tokenPrograms hopIdx heliosSpends hop = .ok hopBuilt)
    (swapIx : Instruction)
    (direct : builder.buildDirectHop cache tokenPrograms directSpends hop = .ok swapIx) :
    ∃ meteora, pool.meteoraMeta = some meteora ∧
      (CachedAhead meteora (decide (hop.tokenIn = pool.tokenA)) →
        OwnAddresses builder hop.pool meteora →
          (SameBinArrays builder hop.pool meteora (decide (hop.tokenIn = pool.tokenA))
              hopBuilt.accounts swapIx.accounts ↔
            YieldsOutward meteora (decide (hop.tokenIn = pool.tokenA)))) := by
  rcases heliosArrays_of_ok powf builder cache tokenPrograms hopIdx heliosSpends hop pool cached
    kind hopBuilt helios with ⟨meteora, known, called⟩
  refine ⟨meteora, known, fun some_ own => ?_⟩
  have sent := directArrays_of_ok builder cache tokenPrograms directSpends hop pool cached kind
    meteora known swapIx direct
  generalize decide (hop.tokenIn = pool.tokenA) = aToB at called some_
  have listed := outward_meteoraBinArrayIndices meteora aToB some_
  have inside : ∀ index ∈ meteoraBinArrayIndices meteora aToB, index ∈ meteora.binArrays.keys :=
    fun index member => ((listed.mem_iff index).mp member).1
  rw [← outward_keys_iff]
  constructor
  · intro ⟨same, _⟩
    rw [← same] at sent
    rw [indices_eq_of_metas builder hop.pool meteora own _ _ _ (fun _ member => member) inside sent
      called]
    exact listed
  · intro yields
    have indices := Outward.unique meteora aToB listed yields
    refine ⟨?_, _, listed, fun amountIn index drained => ?_, called⟩
    · rw [indices] at called
      exact List.right_unique_forall₂' (arrayMeta_unique builder hop.pool) called sent
    · exact (listed.mem_iff index).mpr (drainedArrays_ahead meteora aToB amountIn index drained)

/-- Where both builders succeed, they list the same bin arrays for a DLMM hop exactly if the map
holds those of the swap side only and gives them out from the active one outward. -/
theorem same_bin_arrays_iff (route : RouteParams F) (cache : PoolStateCache)
    (tokenPrograms : HashMap Pubkey Pubkey) (userTokenAccount : Pubkey) (heliosIx : Instruction)
    (helios : builder.buildHeliosInstruction powf route userTokenAccount cache tokenPrograms =
      .ok heliosIx) (fees : PriorityFees F) (provider : FlashProvider)
    (tipIx : Option Instruction) (tx : List Instruction)
    (direct : builder.buildDirectSwapTx env fees route provider cache tipIx tokenPrograms =
      .ok tx) :
    ∃ (hops : List BuiltHop) (swapIxs : List Instruction),
      heliosIx.accounts.drop 4 = hops.flatMap BuiltHop.accounts ∧
      swapIxs <:+: tx ∧ hops.length = route.hops.length ∧ swapIxs.length = route.hops.length ∧
      ∀ place hop, route.hops[place]? = some hop →
        DexType.fromProgramId hop.dexProgram = .meteoraDlmm → ∃ pool meteora hopBuilt swapIx,
          cache.get hop.pool = some pool ∧ pool.meteoraMeta = some meteora ∧
          hops[place]? = some hopBuilt ∧ swapIxs[place]? = some swapIx ∧
          builder.buildHop powf cache tokenPrograms place
            (spentAt safeOut route.borrowAmount route.hops place) hop = .ok hopBuilt ∧
          builder.buildDirectHop cache tokenPrograms
            (spentAt Hop.amountOut route.borrowAmount route.hops place) hop = .ok swapIx ∧
          (CachedAhead meteora (decide (hop.tokenIn = pool.tokenA)) →
            OwnAddresses builder hop.pool meteora →
              (SameBinArrays builder hop.pool meteora (decide (hop.tokenIn = pool.tokenA))
                  hopBuilt.accounts swapIx.accounts ↔
                YieldsOutward meteora (decide (hop.tokenIn = pool.tokenA)))) := by
  rcases hops_built powf env builder route cache tokenPrograms userTokenAccount heliosIx helios fees
    provider tipIx tx direct with ⟨hops, swapIxs, accounts, -, inside, heliosLength, directLength,
      each⟩
  refine ⟨hops, swapIxs, accounts, inside, heliosLength, directLength, ?_⟩
  intro place hop found kind
  rcases each place hop found with ⟨pool, hopBuilt, swapIx, cached, hopAt, swapAt, heliosDone,
    directDone⟩
  rw [Nat.zero_add] at heliosDone
  rcases sameBinArrays_iff_of_hop powf builder cache tokenPrograms hop pool cached kind place _ _
    hopBuilt heliosDone swapIx directDone with ⟨meteora, known, same_iff⟩
  exact ⟨pool, meteora, hopBuilt, swapIx, cached, known, hopAt, swapAt, heliosDone, directDone,
    same_iff⟩

end Builders

/-! A pair with arrays on both sides of the active bin. -/

section Sample

open CrossDex Executability FlashLoans FlashSequence RouteExecution

/-- Derives an address from the last seed. -/
def seedBuilder : TxBuilder :=
  ⟨.ofNat 7, .ofNat 8, fun seeds _ => some (.ofNat (Machine.ofLeBytes (seeds.getLastD [])))⟩

def evenArray (index : Int) : MeteoraBinArray := ⟨index, List.replicate 70 ⟨100, 100, 2 ^ 64⟩⟩

def twoArrays : HashMap Int MeteoraBinArray :=
  (HashMap.empty.insert 1 (evenArray 1)).insert 0 (evenArray 0)

def twoSided : MeteoraMetadata where
  activeId := 0
  binStep := 10
  tokenVaultA := .ofNat 31
  tokenVaultB := .ofNat 32
  parameters := ⟨0, 0, 0⟩
  vParameters := ⟨0⟩
  binArrays := twoArrays

def dlmmPool : DexPool :=
  { wsolPool 1 (10 ^ 13) default with
    dexType := .meteoraDlmm, raydiumMeta := none, meteoraMeta := some twoSided }

def dlmmCache : PoolStateCache :=
  (PoolStateCache.new.upsert dlmmPool).upsert (wsolPool 2 (10 ^ 13) (.ofNat 30))

def sellHop : Hop Double := ⟨.ofNat 1, DexPrograms.meteoraDlmm, wsol, .ofNat (2 ^ 255), 100, ⟨0⟩⟩

def dlmmRoute : RouteParams Double where
  hops := [sellHop, ⟨.ofNat 2, DexPrograms.raydiumAmmV4, .ofNat (2 ^ 255), wsol, 100, ⟨0⟩⟩]
  borrowAmount := 100
  grossProfit := 0
  netProfit := 0
  riskFactor := ⟨0⟩
  strategy := ""
  tier := 0

def dlmmHeliosIx : Instruction :=
  ((seedBuilder.buildHeliosInstruction firstArgument dlmmRoute (.ofNat 9) dlmmCache
    HashMap.empty).toOption).getD ⟨default, [], []⟩

def dlmmTx : List Instruction :=
  ((seedBuilder.buildDirectSwapTx sampleEnv ⟨⟨10⟩, 1000, 5000⟩ dlmmRoute .kamino dlmmCache
    none HashMap.empty).toOption).getD []

theorem dlmmHeliosIx_built :
    seedBuilder.buildHeliosInstruction firstArgument dlmmRoute (.ofNat 9) dlmmCache HashMap.empty =
      .ok dlmmHeliosIx := eq_ok_of_isSome _ _ (by decide +kernel)

theorem dlmmTx_built :
    seedBuilder.buildDirectSwapTx sampleEnv ⟨⟨10⟩, 1000, 5000⟩ dlmmRoute .kamino dlmmCache none
      HashMap.empty = .ok dlmmTx := eq_ok_of_isSome _ _ (by decide +kernel)

theorem twoSided_ownAddresses : OwnAddresses seedBuilder sellHop.pool twoSided := by
  have apart : ∀ index ∈ twoSided.binArrays.keys, ∀ other ∈ twoSided.binArrays.keys,
      seedBuilder.deriveMeteoraBinArray sellHop.pool index =
        seedBuilder.deriveMeteoraBinArray sellHop.pool other → index = other := by
    decide +kernel
  intro index cached other otherCached key derived again
  exact apart index cached other otherCached (derived.trans again.symm)

theorem not_yieldsOutward_twoSided : ¬ YieldsOutward twoSided true := by
  intro ⟨ahead, _⟩
  have above : (1 : Int) = 0 ∨ (1 : Int) < 0 := ahead 1 (by decide +kernel)
  omega

/-- Selling, the direct path lists the array above the active one as well. -/
theorem far_array_sent :
    seedBuilder.buildHeliosInstruction firstArgument dlmmRoute (.ofNat 9) dlmmCache HashMap.empty =
      .ok dlmmHeliosIx ∧
    seedBuilder.buildDirectSwapTx sampleEnv ⟨⟨10⟩, 1000, 5000⟩ dlmmRoute .kamino dlmmCache none
      HashMap.empty = .ok dlmmTx ∧
    dlmmCache.get sellHop.pool = some dlmmPool ∧ CachedAhead twoSided true ∧
    OwnAddresses seedBuilder sellHop.pool twoSided ∧
    ∃ hopBuilt swapIx,
      seedBuilder.buildHop firstArgument dlmmCache HashMap.empty 0 100 sellHop = .ok hopBuilt ∧
      seedBuilder.buildDirectHop dlmmCache HashMap.empty 100 sellHop = .ok swapIx ∧
      hopBuilt.accounts <+: dlmmHeliosIx.accounts.drop 4 ∧ swapIx ∈ dlmmTx ∧
      ¬ SameBinArrays seedBuilder sellHop.pool twoSided true hopBuilt.accounts
        swapIx.accounts := by
  have held : dlmmCache.get sellHop.pool = some dlmmPool := rfl
  have some_ : CachedAhead twoSided true := ⟨0, by decide +kernel, Or.inl rfl⟩
  refine ⟨dlmmHeliosIx_built, dlmmTx_built, held, some_, twoSided_ownAddresses, ?_⟩
  rcases hops_built firstArgument sampleEnv seedBuilder dlmmRoute dlmmCache HashMap.empty (.ofNat 9)
    dlmmHeliosIx dlmmHeliosIx_built ⟨⟨10⟩, 1000, 5000⟩ .kamino none dlmmTx dlmmTx_built with
    ⟨hops, swapIxs, accounts, -, inside, -, -, each⟩
  rcases each 0 sellHop rfl with ⟨pool, hopBuilt, swapIx, cached, hopAt, swapAt, called, sent⟩
  rw [held, Option.some.injEq] at cached
  rcases sameBinArrays_iff_of_hop firstArgument seedBuilder dlmmCache HashMap.empty sellHop dlmmPool
    held (by decide +kernel) 0 100 100 hopBuilt called swapIx sent with ⟨meteora, known, same_iff⟩
  cases known
  have selling : decide (sellHop.tokenIn = dlmmPool.tokenA) = true := decide_eq_true rfl
  rw [selling] at same_iff
  refine ⟨hopBuilt, swapIx, called, sent, ?_, inside.subset (List.mem_of_getElem? swapAt), ?_⟩
  · rw [accounts]
    cases hops with
    | nil => cases hopAt
    | cons head others =>
        cases hopAt
        exact List.prefix_append _ _
  · rw [same_iff some_ twoSided_ownAddresses]
    exact not_yieldsOutward_twoSided

theorem dlmmRoute_same_iff :
    ∃ (hops : List BuiltHop) (swapIxs : List Instruction),
      dlmmHeliosIx.accounts.drop 4 = hops.flatMap BuiltHop.accounts ∧
      swapIxs <:+: dlmmTx ∧ hops.length = dlmmRoute.hops.length ∧
      swapIxs.length = dlmmRoute.hops.length ∧
      ∀ place hop, dlmmRoute.hops[place]? = some hop →
        DexType.fromProgramId hop.dexProgram = .meteoraDlmm → ∃ pool meteora hopBuilt swapIx,
          dlmmCache.get hop.pool = some pool ∧ pool.meteoraMeta = some meteora ∧
          hops[place]? = some hopBuilt ∧ swapIxs[place]? = some swapIx ∧
          seedBuilder.buildHop firstArgument dlmmCache HashMap.empty place
            (spentAt safeOut dlmmRoute.borrowAmount dlmmRoute.hops place) hop = .ok hopBuilt ∧
          seedBuilder.buildDirectHop dlmmCache HashMap.empty
            (spentAt Hop.amountOut dlmmRoute.borrowAmount dlmmRoute.hops place) hop = .ok swapIx ∧
          (CachedAhead meteora (decide (hop.tokenIn = pool.tokenA)) →
            OwnAddresses seedBuilder hop.pool meteora →
              (SameBinArrays seedBuilder hop.pool meteora (decide (hop.tokenIn = pool.tokenA))
                  hopBuilt.accounts swapIx.accounts ↔
                YieldsOutward meteora (decide (hop.tokenIn = pool.tokenA)))) :=
  same_bin_arrays_iff firstArgument sampleEnv seedBuilder dlmmRoute dlmmCache HashMap.empty
    (.ofNat 9) dlmmHeliosIx dlmmHeliosIx_built ⟨⟨10⟩, 1000, 5000⟩ .kamino none dlmmTx dlmmTx_built

end Sample

end Helios.BinArrayMetas
