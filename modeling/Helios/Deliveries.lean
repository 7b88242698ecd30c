import Helios.FreshReserves
import Helios.SignalProcessor

/-! One transaction delivered several times: by the Turbine pipeline, to a tracker and
then to the signal processor, and by the proxy, to a tracker of its own. All of them
write to one pool cache, and nothing tells two deliveries of one transaction apart. -/

namespace Helios.Deliveries

open Decoded FreshReserves Machine Runs SwapDecoder SignalProcessor Tracked

/-- The cache and the two trackers over it. -/
structure Feeds where
  cache : PoolStateCache
  turbine : ShredDeltaTracker
  proxy : ShredDeltaTracker

inductive Delivery where
  /-- The Turbine pipeline's tracker. -/
  | turbine (now : Instant)
  /-- Its signal processor. -/
  | processor (now : Instant)
  /-- The callback of the proxy. -/
  | proxy (now : Instant)

def Delivery.now : Delivery → Instant
  | .turbine now => now
  | .processor now => now
  | .proxy now => now

def Delivery.isProcessor : Delivery → Bool
  | .processor _ => true
  | _ => false

/-! A transaction with one swap. -/

/-- No account of an instruction is a vault of this index. -/
def Unknown (vaults : HashMap Pubkey (Pubkey × Bool)) (keys : List Pubkey)
    (ix : CompiledInstruction) : Prop :=
  ∀ index ∈ ix.accounts, ∀ key, keys[index.toNat]? = some key → vaults.get key = none

/-- An instruction beside the swap: of no monitored program, and no token transfer that
touches a vault of this index. -/
def InertFor (vaults : HashMap Pubkey (Pubkey × Bool)) (keys : List Pubkey)
    (ix : CompiledInstruction) : Prop :=
  ∃ prog, keys[ix.programIdIndex.toNat]? = some prog ∧ prog ∉ monitoredPrograms ∧
    (prog = tokenProgramId ∨ prog = ShredDeltaTracker.token2022 →
      transferOf ix = value none ∨ Unknown vaults keys ix)

structure OneSwap (feeds : Feeds) (tx : TxMessage) (ix : CompiledInstruction)
    (swap : DetectedSwap) : Prop where
  program : tx.accountKeys[ix.programIdIndex.toNat]? = some DexPrograms.raydiumAmmV4 ∨
    tx.accountKeys[ix.programIdIndex.toNat]? = some DexPrograms.pumpswap
  decoded : decodeSwap tx.accountKeys ix = some swap
  others : ∃ before after, tx.instructions = before ++ [ix] ++ after ∧
    ∀ other ∈ before ++ after, InertFor feeds.turbine.vaultToPool tx.accountKeys other ∧
      InertFor feeds.proxy.vaultToPool tx.accountKeys other

/-- The two kinds of swap: the data's tag, and the amount behind it. -/
theorem swap_data (feeds : Feeds) (tx : TxMessage) (ix : CompiledInstruction)
    (swap : DetectedSwap) (one : OneSwap feeds tx ix swap) :
    (tx.accountKeys[ix.programIdIndex.toNat]? = some DexPrograms.raydiumAmmV4 ∧
        17 ≤ ix.data.length ∧ ix.data.take 1 = [9] ∧ swap.amountIn = u64At 1 ix.data) ∨
      (tx.accountKeys[ix.programIdIndex.toNat]? = some DexPrograms.pumpswap ∧
        16 ≤ ix.data.length ∧ ix.data.take 8 ∈ [pumpSwapBuyDisc, pumpSwapSellDisc] ∧
        swap.amountIn = u64At 8 ix.data) := by
  have decoded := one.decoded
  rcases one.program with named | named
  · rw [decodeSwap_of_program _ _ _ named, decoderFor_raydium] at decoded
    change decodeRaydiumV4 ix.data ix.accounts tx.accountKeys = some swap at decoded
    rw [decodeRaydiumV4] at decoded
    rcases decodeTagged_some _ _ _ _ _ _ _ _ _ _ decoded with ⟨long, known, amount⟩
    exact Or.inl ⟨named, long, List.mem_singleton.mp known, amount⟩
  · rw [decodeSwap_of_program _ _ _ named, decoderFor_pumpswap] at decoded
    change decodePumpSwap ix.data ix.accounts tx.accountKeys = some swap at decoded
    rw [decodePumpSwap] at decoded
    rcases decodeTagged_some _ _ _ _ _ _ _ _ _ _ decoded with ⟨long, known, amount⟩
    exact Or.inr ⟨named, long, known, amount⟩

theorem swapAmount_of_swap (feeds : Feeds) (tx : TxMessage) (ix : CompiledInstruction)
    (swap : DetectedSwap) (one : OneSwap feeds tx ix swap) (prog : Pubkey)
    (named : tx.accountKeys[ix.programIdIndex.toNat]? = some prog) :
    swapAmount prog ix.data = value (some swap.amountIn) := by
  rcases swap_data feeds tx ix swap one with ⟨venue, long, tag, amount⟩ | ⟨venue, long, -, amount⟩
  · rw [named] at venue
    have same := Option.some.inj venue
    subst same
    have first : Account.index ix.data 0 = value 9 := by
      have head := congrArg (fun bytes : List UInt8 => bytes[0]?) tag
      rw [List.getElem?_take_of_lt (by norm_num)] at head
      rw [Account.index, head]
      rfl
    rw [swapAmount, if_pos rfl, if_neg (by omega), first, value_bind, if_pos rfl,
      Account.sliceU64_of_inside ix.data 1 (by omega), amount]
    rfl
  · rw [named] at venue
    have same := Option.some.inj venue
    subst same
    rw [swapAmount, if_neg pumpswap_ne_raydium, if_pos ⟨rfl, long⟩,
      Account.sliceU64_of_inside ix.data 8 (by omega), amount]
    rfl

/-! The tracker's pass over such a transaction. -/

/-- The pools and the vaults of a tracker's state are those of another. -/
structure SamePools (state other : Tracked) : Prop where
  cache : other.cache = state.cache
  vaults : other.tracker.vaultToPool = state.tracker.vaultToPool

theorem SamePools.trans {first second third : Tracked} (here : SamePools first second)
    (later : SamePools second third) : SamePools first third :=
  ⟨later.cache.trans here.cache, later.vaults.trans here.vaults⟩

theorem onSwap_inert (now : Instant) (keys : List Pubkey) (state : Tracked)
    (ix : CompiledInstruction) (vaults : HashMap Pubkey (Pubkey × Bool))
    (inert : InertFor vaults keys ix) : onSwap now keys state ix = value state := by
  rcases inert with ⟨prog, named, other, -⟩
  simp only [monitoredPrograms, List.mem_cons, List.not_mem_nil, or_false, not_or] at other
  rcases other with ⟨raydium, -, orca, meteora, -, pumpswap, -⟩
  rw [onSwap, named]
  dsimp only
  rw [if_neg (not_or.mpr ⟨raydium, pumpswap⟩), if_neg (not_or.mpr ⟨orca, meteora⟩)]
  rfl

theorem vaultAt_of_unknown (tracker : ShredDeltaTracker) (keys : List Pubkey)
    (ix : CompiledInstruction) (unknown : Unknown tracker.vaultToPool keys ix) (place : Nat) :
    ix.accounts[place]?.bind (tracker.vaultAt keys) = none := by
  cases listed : ix.accounts[place]? with
  | none => rfl
  | some index =>
      have member := List.mem_of_getElem? listed
      change tracker.vaultAt keys index = none
      rw [ShredDeltaTracker.vaultAt]
      cases named : keys[index.toNat]? with
      | none => rfl
      | some key =>
          have absent := unknown index member key named
          change (tracker.vaultToPool.get key).bind _ = none
          rw [absent]
          rfl

theorem onTransfer_inert (keys : List Pubkey) (state : Tracked) (ix : CompiledInstruction)
    (inert : InertFor state.tracker.vaultToPool keys ix) :
    ∃ after, onTransfer keys state ix = value after ∧ SamePools state after := by
  rcases inert with ⟨prog, named, -, quiet⟩
  rw [onTransfer, named]
  dsimp only
  split
  · exact ⟨state, rfl, ⟨rfl, rfl⟩⟩
  · next outside =>
      have token : prog = tokenProgramId ∨ prog = ShredDeltaTracker.token2022 := by
        by_contra neither
        exact outside (not_or.mp neither)
      rcases returns_transferOf ix with ⟨found, same⟩
      rw [same, value_bind]
      cases found with
      | none => exact ⟨state, rfl, ⟨rfl, rfl⟩⟩
      | some transfer =>
          rcases quiet token with absent | unknown
          · rw [same] at absent
            cases absent
          · dsimp only
            split
            · exact ⟨state, rfl, ⟨rfl, rfl⟩⟩
            · have idle : ∀ (counted : Tracked) (place : Nat) (credit : Bool),
                  counted.tracker.vaultToPool = state.tracker.vaultToPool →
                    applyEnd keys ix.accounts place transfer.1 credit counted = counted := by
                intro counted place credit same
                rw [applyEnd, vaultAt_of_unknown counted.tracker keys ix (same ▸ unknown) place]
              have first := idle { state with tracker := { state.tracker with
                transfersFound := wrap 64 (state.tracker.transfersFound + 1) } } 0 false rfl
              have second := idle { state with tracker := { state.tracker with
                transfersFound := wrap 64 (state.tracker.transfersFound + 1) } } transfer.2 true rfl
              refine ⟨_, rfl, ?_⟩
              rw [first, second]
              exact ⟨rfl, rfl⟩

theorem reached_congr (now : Instant) (keys : List Pubkey) (state other : Tracked)
    (same : SamePools state other) (accounts : List UInt8) :
    reached now keys other accounts = reached now keys state accounts := by
  have vaults : ∀ index, other.tracker.vaultAt keys index = state.tracker.vaultAt keys index := by
    intro index
    rw [ShredDeltaTracker.vaultAt, ShredDeltaTracker.vaultAt, same.vaults]
  induction accounts with
  | nil => rfl
  | cons index rest ih => rw [reached, reached, vaults, same.cache, ih]

theorem foldlM_onSwap_inert (now : Instant) (keys : List Pubkey) (state : Tracked)
    (vaults : HashMap Pubkey (Pubkey × Bool)) (others : List CompiledInstruction)
    (inert : ∀ other ∈ others, InertFor vaults keys other) :
    others.foldlM (onSwap now keys) state = value state := by
  induction others with
  | nil => rfl
  | cons other rest ih =>
      rw [List.foldlM_cons, onSwap_inert now keys state other vaults (inert other List.mem_cons_self),
        value_bind]
      exact ih (fun later member => inert later (List.mem_cons_of_mem _ member))

/-- The pool and the side a tracker finds for the swap. -/
def hit (now : Instant) (keys : List Pubkey) (amountIn : Nat) (state : Tracked)
    (accounts : List UInt8) : Option (Pubkey × Bool) :=
  if amountIn = 0 then none else (reached now keys state accounts).map Prod.snd

def afterHit (now : Instant) (amountIn : Nat) (cache : PoolStateCache) :
    Option (Pubkey × Bool) → PoolStateCache
  | none => cache
  | some (pool, isVaultA) =>
      (cache.getMut pool (fun held =>
        held.applySimulatedSwap now isVaultA amountIn)).bumpSwapGeneration

theorem onSwap_swap (now : Instant) (feeds : Feeds) (tx : TxMessage) (ix : CompiledInstruction)
    (swap : DetectedSwap) (one : OneSwap feeds tx ix swap) (state : Tracked) :
    ∃ after, onSwap now tx.accountKeys state ix = value after ∧
      after.tracker.vaultToPool = state.tracker.vaultToPool ∧
      after.cache = afterHit now swap.amountIn state.cache
        (hit now tx.accountKeys swap.amountIn state ix.accounts) := by
  have venue : ∃ prog, tx.accountKeys[ix.programIdIndex.toNat]? = some prog ∧
      (prog = DexPrograms.raydiumAmmV4 ∨ prog = DexPrograms.pumpswap) := by
    rcases one.program with named | named
    · exact ⟨_, named, Or.inl rfl⟩
    · exact ⟨_, named, Or.inr rfl⟩
  rcases venue with ⟨prog, named, kind⟩
  rw [onSwap, named]
  dsimp only
  rw [if_pos kind, swapAmount_of_swap feeds tx ix swap one prog named, value_bind, hit]
  dsimp only
  split
  · exact ⟨state, rfl, rfl, rfl⟩
  · rw [simulateSwap_eq]
    cases reached now tx.accountKeys state ix.accounts with
    | none => exact ⟨state, rfl, rfl, rfl⟩
    | some found =>
        rcases found with ⟨vault, pool, isVaultA⟩
        exact ⟨_, rfl, rfl, rfl⟩

theorem foldlM_onTransfer_inert (keys : List Pubkey) (state : Tracked)
    (others : List CompiledInstruction)
    (inert : ∀ other ∈ others, InertFor state.tracker.vaultToPool keys other) :
    ∃ after, others.foldlM (onTransfer keys) state = value after ∧ SamePools state after := by
  induction others generalizing state with
  | nil => exact ⟨state, rfl, ⟨rfl, rfl⟩⟩
  | cons other rest ih =>
      rcases onTransfer_inert keys state other (inert other List.mem_cons_self) with
        ⟨next, same, pools⟩
      have later := ih next (by
        intro last member
        rw [pools.vaults]
        exact inert last (List.mem_cons_of_mem _ member))
      rcases later with ⟨after, ran, rest⟩
      refine ⟨after, ?_, pools.trans rest⟩
      rw [List.foldlM_cons, same, value_bind, ran]

/-- The swap's own program is no token program. -/
theorem onTransfer_swap (feeds : Feeds) (tx : TxMessage) (ix : CompiledInstruction)
    (swap : DetectedSwap) (one : OneSwap feeds tx ix swap) (state : Tracked) :
    onTransfer tx.accountKeys state ix = value state := by
  have foreign : DexPrograms.raydiumAmmV4 ≠ tokenProgramId ∧
      DexPrograms.raydiumAmmV4 ≠ ShredDeltaTracker.token2022 ∧
      DexPrograms.pumpswap ≠ tokenProgramId ∧
      DexPrograms.pumpswap ≠ ShredDeltaTracker.token2022 := by decide +kernel
  rcases foreign with ⟨raydium, raydium2022, pumpswap, pumpswap2022⟩
  rcases one.program with named | named
  · rw [onTransfer, named]
    exact if_pos ⟨raydium, raydium2022⟩
  · rw [onTransfer, named]
    exact if_pos ⟨pumpswap, pumpswap2022⟩

/-- A tracker's whole pass moves the pool it finds for the swap, and no other. -/
theorem processTransaction_swap (now : Instant) (feeds : Feeds) (tx : TxMessage)
    (ix : CompiledInstruction) (swap : DetectedSwap) (one : OneSwap feeds tx ix swap)
    (state : Tracked)
    (known : state.tracker.vaultToPool = feeds.turbine.vaultToPool ∨
      state.tracker.vaultToPool = feeds.proxy.vaultToPool) :
    ∃ after, processTransaction now state tx = value after ∧
      after.tracker.vaultToPool = state.tracker.vaultToPool ∧
      after.cache = afterHit now swap.amountIn state.cache
        (hit now tx.accountKeys swap.amountIn state ix.accounts) := by
  rcases one.others with ⟨before, rest, listed, inert⟩
  have quiet : ∀ other ∈ before ++ rest,
      InertFor state.tracker.vaultToPool tx.accountKeys other := by
    intro other member
    rcases known with same | same
    · rw [same]
      exact (inert other member).1
    · rw [same]
      exact (inert other member).2
  have scanned : SamePools state { state with tracker :=
      { state.tracker with txsScanned := wrap 64 (state.tracker.txsScanned + 1) } } := ⟨rfl, rfl⟩
  rw [processTransaction, listed]
  generalize ({ state with tracker := { state.tracker with
    txsScanned := wrap 64 (state.tracker.txsScanned + 1) } } : Tracked) = start at scanned ⊢
  rcases onSwap_swap now feeds tx ix swap one start with ⟨moved, swapped, vaults, cache⟩
  have first : (before ++ [ix] ++ rest).foldlM (onSwap now tx.accountKeys) start = value moved := by
    rw [List.foldlM_append, List.foldlM_append,
      foldlM_onSwap_inert now tx.accountKeys start _ before
        (fun other member => quiet other (List.mem_append_left rest member)),
      value_bind, List.foldlM_cons, swapped, value_bind, List.foldlM_nil]
    exact foldlM_onSwap_inert now tx.accountKeys moved _ rest
      (fun other member => quiet other (List.mem_append_right before member))
  have movedVaults : moved.tracker.vaultToPool = state.tracker.vaultToPool :=
    vaults.trans scanned.vaults
  rcases foldlM_onTransfer_inert tx.accountKeys moved before (by
    intro other member
    rw [movedVaults]
    exact quiet other (List.mem_append_left rest member)) with ⟨middle, early, kept⟩
  rcases foldlM_onTransfer_inert tx.accountKeys middle rest (by
    intro other member
    rw [kept.vaults, movedVaults]
    exact quiet other (List.mem_append_right before member)) with ⟨last, late, still⟩
  have second : (before ++ [ix] ++ rest).foldlM (onTransfer tx.accountKeys) moved = value last := by
    rw [List.foldlM_append, List.foldlM_append, early, value_bind, List.foldlM_cons,
      onTransfer_swap feeds tx ix swap one middle, value_bind, List.foldlM_nil]
    exact late
  have pools := kept.trans still
  refine ⟨last, ?_, pools.vaults.trans movedVaults, ?_⟩
  · rw [first, value_bind, second]
  · rw [pools.cache, cache, scanned.cache, hit, hit,
      reached_congr now tx.accountKeys state start scanned]

/-! The signal processor on such a transaction. -/

theorem extractProgramIds_eq (tx : TxMessage)
    (named : ∀ ix ∈ tx.instructions, ∃ prog, tx.accountKeys[ix.programIdIndex.toNat]? = some prog) :
    extractProgramIds tx =
      value (tx.instructions.map (fun ix =>
        (tx.accountKeys[ix.programIdIndex.toNat]?).getD default)) := by
  rw [extractProgramIds, mapM_congr _ (fun ix =>
    value ((tx.accountKeys[ix.programIdIndex.toNat]?).getD default))]
  · exact List.mapM_pure
  · intro ix member
    rcases named ix member with ⟨prog, found⟩
    rw [keyAt, found]
    rfl

theorem graduationOf_inert (keys : List Pubkey) (prog : Pubkey) (ix : CompiledInstruction)
    (other : prog ∉ monitoredPrograms) : graduationOf keys prog ix = value none := by
  simp only [monitoredPrograms, List.mem_cons, List.not_mem_nil, or_false, not_or] at other
  rcases other with ⟨-, -, -, -, -, pumpswap, pumpFun, -, -, -, -, launchlab, moonshot⟩
  rw [graduationOf, if_neg pumpswap, if_neg pumpFun, if_neg launchlab, if_neg moonshot]
  rfl

theorem startsWith_eq (data : List UInt8) (tagLength : Nat) (tags : List (List UInt8))
    (long : tagLength ≤ data.length) :
    startsWith data tagLength tags = value (decide (data.take tagLength ∈ tags)) := by
  rw [startsWith, if_neg (not_lt.mpr long), Account.slice_of_inside data 0 tagLength (by omega),
    value_bind, List.drop_zero]
  rfl

theorem graduationOf_swap (feeds : Feeds) (tx : TxMessage) (ix : CompiledInstruction)
    (swap : DetectedSwap) (one : OneSwap feeds tx ix swap) (prog : Pubkey)
    (named : tx.accountKeys[ix.programIdIndex.toNat]? = some prog) :
    graduationOf tx.accountKeys prog ix = value none := by
  have foreign : pumpFunProgram ≠ DexPrograms.raydiumAmmV4 ∧
      raydiumLaunchlab ≠ DexPrograms.raydiumAmmV4 ∧ moonshot ≠ DexPrograms.raydiumAmmV4 :=
    launchpads_ne_dexProgramFor .raydiumAmmV4
  rcases swap_data feeds tx ix swap one with ⟨venue, -, -, -⟩ | ⟨venue, long, tag, -⟩
  · rw [named] at venue
    have same := Option.some.inj venue
    subst same
    rw [graduationOf, if_neg pumpswap_ne_raydium.symm, if_neg foreign.1.symm,
      if_neg foreign.2.1.symm, if_neg foreign.2.2.symm]
    rfl
  · rw [named] at venue
    have same := Option.some.inj venue
    subst same
    have trade : ix.data.take 8 ∉ [pumpSwapCreatePoolDisc] := by
      intro created
      rw [List.mem_singleton] at created
      rw [created] at tag
      exact absurd tag (by decide)
    rw [graduationOf, if_pos rfl, startsWith_eq ix.data 8 _ (by omega), value_bind,
      decide_eq_false trade]
    rfl

theorem detectGraduation_refused (keys : List Pubkey) (instructions : List CompiledInstruction)
    (none : ∀ ix ∈ instructions, ∀ prog, keys[ix.programIdIndex.toNat]? = some prog →
      graduationOf keys prog ix = value none) :
    detectGraduation keys instructions = refused := by
  induction instructions with
  | nil => rfl
  | cons ix rest ih =>
      have later := ih (fun other member => none other (List.mem_cons_of_mem _ member))
      rw [detectGraduation]
      cases named : keys[ix.programIdIndex.toNat]? with
      | none => exact later
      | some prog =>
          dsimp only
          rw [none ix List.mem_cons_self prog named, value_bind]
          exact later

/-- An instruction that creates no pool. -/
def CreatesNone (keys : List Pubkey) (ix : CompiledInstruction) : Prop :=
  ∀ layout ∈ creationLayouts, creationOf keys ix layout = value none

theorem creationOf_inert (keys : List Pubkey) (ix : CompiledInstruction) (prog : Pubkey)
    (named : keys[ix.programIdIndex.toNat]? = some prog) (other : prog ∉ monitoredPrograms) :
    CreatesNone keys ix := by
  intro layout member
  have monitored : ∀ layout ∈ creationLayouts, layout.program ∈ monitoredPrograms := by
    intro layout member
    simp only [creationLayouts, List.mem_cons, List.not_mem_nil, or_false] at member
    rcases member with rfl | rfl | rfl | rfl <;> simp [monitoredPrograms]
  rw [creationOf, named, if_neg]
  · rfl
  · intro same
    cases same
    exact other (monitored layout member)

theorem creationOf_swap (feeds : Feeds) (tx : TxMessage) (ix : CompiledInstruction)
    (swap : DetectedSwap) (one : OneSwap feeds tx ix swap) : CreatesNone tx.accountKeys ix := by
  intro layout member
  have programs : ∀ layout ∈ creationLayouts, layout.program ≠ DexPrograms.pumpswap ∧
      (layout.program = DexPrograms.raydiumAmmV4 → layout.tag = [1]) := by
    intro layout member
    simp only [creationLayouts, List.mem_cons, List.not_mem_nil, or_false] at member
    rcases member with rfl | rfl | rfl | rfl
    · exact ⟨program_ne .raydiumAmmV4 .pumpSwap (by decide), fun _ => rfl⟩
    · exact ⟨program_ne .orcaWhirlpool .pumpSwap (by decide),
        fun same => absurd same (program_ne .orcaWhirlpool .raydiumAmmV4 (by decide))⟩
    · exact ⟨program_ne .meteoraDlmm .pumpSwap (by decide),
        fun same => absurd same (program_ne .meteoraDlmm .raydiumAmmV4 (by decide))⟩
    · exact ⟨program_ne .raydiumCpmm .pumpSwap (by decide),
        fun same => absurd same (program_ne .raydiumCpmm .raydiumAmmV4 (by decide))⟩
  rcases programs layout member with ⟨other, first⟩
  rcases swap_data feeds tx ix swap one with ⟨venue, long, tag, -⟩ | ⟨venue, -, -, -⟩
  · rw [creationOf, venue]
    split
    · next same =>
        rw [first (Option.some.inj same).symm, List.length_singleton,
          startsWith_eq ix.data 1 _ (by omega), tag, value_bind]
        rfl
    · rfl
  · rw [creationOf, venue, if_neg (fun same => other (Option.some.inj same).symm)]
    rfl

theorem detectPoolCreations_nil (tx : TxMessage)
    (quiet : ∀ ix ∈ tx.instructions, CreatesNone tx.accountKeys ix) :
    detectPoolCreations tx = value [] := by
  have each : ∀ ix ∈ tx.instructions, creationLayouts.mapM (creationOf tx.accountKeys ix) =
      value (creationLayouts.map (fun _ => none)) := by
    intro ix member
    rw [mapM_congr _ (fun _ => value none) _ (quiet ix member)]
    exact List.mapM_pure
  rw [detectPoolCreations, mapM_congr _ (fun _ => value (creationLayouts.map (fun _ => none)))
    _ each]
  have all : tx.instructions.mapM (fun _ =>
      (value (creationLayouts.map (fun _ => (none : Option PoolCreationEvent))))) =
        value (tx.instructions.map (fun _ => creationLayouts.map (fun _ => none))) := List.mapM_pure
  rw [all, value_bind]
  have empty : (tx.instructions.map (fun _ =>
      creationLayouts.map (fun _ => (none : Option PoolCreationEvent)))).flatten.reduceOption = [] := by
    rw [Checked.reduceOption_eq, List.filterMap_eq_nil_iff]
    intro found member
    rcases List.mem_flatten.mp member with ⟨row, listed, inside⟩
    rcases List.mem_map.mp listed with ⟨ix, -, same⟩
    rw [← same] at inside
    rcases List.mem_map.mp inside with ⟨layout, -, absent⟩
    exact absent.symm
  rw [empty]
  rfl

theorem decodeSwap_inert (vaults : HashMap Pubkey (Pubkey × Bool)) (keys : List Pubkey)
    (ix : CompiledInstruction) (inert : InertFor vaults keys ix) : decodeSwap keys ix = none := by
  rcases inert with ⟨prog, named, other, -⟩
  simp only [monitoredPrograms, List.mem_cons, List.not_mem_nil, or_false, not_or] at other
  rcases other with ⟨raydium, clmm, orca, meteora, dynamic, pumpswap, pumpFun, jupiter, fluxbeam,
    saber, cpmm, -⟩
  rw [decodeSwap_of_program keys ix prog named, decoderFor, if_neg raydium, if_neg clmm,
    if_neg orca, if_neg meteora, if_neg pumpswap, if_neg fluxbeam, if_neg saber, if_neg cpmm,
    if_neg pumpFun, if_neg jupiter, if_neg dynamic]
  rfl

theorem decodeSwaps_swap (feeds : Feeds) (tx : TxMessage) (ix : CompiledInstruction)
    (swap : DetectedSwap) (one : OneSwap feeds tx ix swap) : decodeSwaps tx = [swap] := by
  rcases one.others with ⟨before, rest, listed, inert⟩
  have none : ∀ others : List CompiledInstruction, (∀ other ∈ others, other ∈ before ++ rest) →
      decodeSwaps ⟨tx.accountKeys, others⟩ = [] := by
    intro others among
    rw [decodeSwaps, List.filterMap_eq_nil_iff]
    intro other member
    exact decodeSwap_inert _ tx.accountKeys other (inert other (among other member)).1
  have whole := decodeSwaps_append tx.accountKeys before rest ix
  rw [← listed, none before (fun other member => List.mem_append_left rest member),
    none rest (fun other member => List.mem_append_right before member), one.decoded] at whole
  exact whole

/-- The processor finds no graduation and no new pool, and moves the swap's pool. -/
theorem handleNewTx_swap {F : Type} [FloatArith F] (powf : F → F → F) (now : Instant)
    (monitor : Bool) (cache : PoolStateCache) (feeds : Feeds) (tx : TxMessage)
    (ix : CompiledInstruction) (swap : DetectedSwap) (one : OneSwap feeds tx ix swap) :
    ∃ handled, handleNewTx powf now monitor cache tx =
      value (applySwap powf now cache swap, handled) := by
  rcases one.others with ⟨before, rest, listed, inert⟩
  have kinds : ∀ other ∈ tx.instructions, other = ix ∨
      InertFor feeds.turbine.vaultToPool tx.accountKeys other := by
    intro other member
    rw [listed, List.mem_append, List.mem_append, List.mem_singleton] at member
    rcases member with (early | same) | late
    · exact Or.inr (inert other (List.mem_append_left rest early)).1
    · exact Or.inl same
    · exact Or.inr (inert other (List.mem_append_right before late)).1
  have venue : ∃ prog, tx.accountKeys[ix.programIdIndex.toNat]? = some prog ∧
      prog ∈ monitoredPrograms := by
    rcases one.program with named | named
    · exact ⟨_, named, by simp [monitoredPrograms]⟩
    · exact ⟨_, named, by simp [monitoredPrograms]⟩
  rcases venue with ⟨prog, named, monitored⟩
  have ids := extractProgramIds_eq tx (by
    intro other member
    rcases kinds other member with same | ⟨foreign, found, -, -⟩
    · exact ⟨prog, same ▸ named⟩
    · exact ⟨foreign, found⟩)
  have ungraduated : detectGraduation tx.accountKeys tx.instructions = refused := by
    apply detectGraduation_refused
    intro other member program found
    rcases kinds other member with same | ⟨foreign, here, outside, -⟩
    · rw [same] at found ⊢
      exact graduationOf_swap feeds tx ix swap one program found
    · have same : foreign = program := Option.some.inj (here.symm.trans found)
      exact graduationOf_inert tx.accountKeys program other (same ▸ outside)
  have uncreated : watchedCreations monitor tx = value [] := by
    cases monitor with
    | false => rfl
    | true =>
        apply detectPoolCreations_nil
        intro other member
        rcases kinds other member with same | ⟨foreign, here, outside, -⟩
        · rw [same]
          exact creationOf_swap feeds tx ix swap one
        · exact creationOf_inert tx.accountKeys other foreign here outside
  have touches : (tx.instructions.map (fun other =>
      (tx.accountKeys[other.programIdIndex.toNat]?).getD default)).all
        (fun id => decide (id ∉ monitoredPrograms)) = false := by
    rw [List.all_eq_false]
    refine ⟨prog, List.mem_map.mpr ⟨ix, ?_, ?_⟩, by simp [monitored]⟩
    · rw [listed]
      exact List.mem_append_left rest (List.mem_append_right before List.mem_cons_self)
    · rw [named]
      rfl
  have other : ∃ handled, handleOther powf now monitor cache (tx.instructions.map (fun other =>
      (tx.accountKeys[other.programIdIndex.toNat]?).getD default)) tx =
        value (applySwap powf now cache swap, handled) := by
    rcases returns_detectLpEvents tx with ⟨lpEvents, events⟩
    refine ⟨.decoded [] lpEvents [swap], ?_⟩
    rw [handleOther, uncreated, value_bind, events, value_bind, touches,
      Checked.decodeSwaps_eq tx, decodeSwaps_swap feeds tx ix swap one]
    rfl
  rcases other with ⟨handled, same⟩
  refine ⟨handled, ?_⟩
  rw [handleNewTx, ids, value_bind]
  cases graduationSource tx.accountKeys with
  | none => exact same
  | some source =>
      dsimp only
      rw [ungraduated]
      exact same

/-! Deliveries and what they come to. -/

section Runs

variable {F : Type} [FloatArith F] (powf : F → F → F) (monitor : Bool) (slot : Nat)
  (tx : TxMessage)

def deliver (feeds : Feeds) : Delivery → Decoded Feeds
  | .turbine now => do
      let after ← processTransaction now ⟨feeds.turbine, feeds.cache⟩ tx
      return ⟨after.cache, after.tracker.detectDexActivity after.cache slot tx, feeds.proxy⟩
  | .processor now => do
      let after ← handleNewTx powf now monitor feeds.cache tx
      return ⟨after.1, feeds.turbine, feeds.proxy⟩
  | .proxy now => do
      let after ← processTransaction now ⟨feeds.proxy, feeds.cache⟩ tx
      return ⟨after.cache, feeds.turbine, after.tracker⟩

/-- The feeds after a delivery that completes. -/
def delivered (feeds : Feeds) (delivery : Delivery) : Feeds :=
  match deliver powf monitor slot tx feeds delivery with
  | .value after => after
  | _ => feeds

/-- The side by which a tracker's delivery finds a pool for the swap. -/
def reaches (key : Pubkey) (ix : CompiledInstruction) (amountIn : Nat) (feeds : Feeds) :
    Delivery → Option Bool
  | .turbine now =>
      (hit now tx.accountKeys amountIn ⟨feeds.turbine, feeds.cache⟩ ix.accounts).bind
        (fun found => if found.1 = key then some found.2 else none)
  | .proxy now =>
      (hit now tx.accountKeys amountIn ⟨feeds.proxy, feeds.cache⟩ ix.accounts).bind
        (fun found => if found.1 = key then some found.2 else none)
  | .processor _ => none

/-- What a delivery does to the swap's pool. -/
def onPool (swap : DetectedSwap) (delivery : Delivery) (side : Option Bool) (pool : DexPool) :
    DexPool :=
  if delivery.isProcessor then
    pool.applySwapDelta powf delivery.now swap.amountIn
      (pool.quote powf delivery.now swap.aToB swap.amountIn) swap.aToB
  else
    match side with
    | some isVaultA => pool.applySimulatedSwap delivery.now isVaultA swap.amountIn
    | none => pool

theorem vaultToPool_detectDexActivity (cache : PoolStateCache) (tracker : ShredDeltaTracker) :
    (tracker.detectDexActivity cache slot tx).vaultToPool = tracker.vaultToPool := by
  rw [ShredDeltaTracker.detectDexActivity]
  induction tx.instructions generalizing tracker with
  | nil => rfl
  | cons ix rest ih =>
      rw [List.foldl_cons, ih, ShredDeltaTracker.onActivity]
      split
      · rw [ShredDeltaTracker.noteActivity]
        dsimp only
        split
        · rfl
        · rfl
      · rfl

theorem get_afterHit (now : Instant) (amountIn : Nat) (cache : PoolStateCache) (key : Pubkey)
    (found : Option (Pubkey × Bool)) :
    (afterHit now amountIn cache found).get key = (cache.get key).map (fun pool =>
      match found.bind (fun entry => if entry.1 = key then some entry.2 else none) with
      | some isVaultA => pool.applySimulatedSwap now isVaultA amountIn
      | none => pool) := by
  cases found with
  | none => simp [afterHit]
  | some entry =>
      rcases entry with ⟨address, isVaultA⟩
      have moved := cache.get_getMut address key
        (fun held => held.applySimulatedSwap now isVaultA amountIn)
      change (cache.getMut address _).get key = _
      rw [moved]
      by_cases own : address = key
      · rw [if_pos own.symm, own]
        simp
      · rw [if_neg (Ne.symm own)]
        simp [own]

/-- Every delivery completes, keeps both indexes, and does to the pool what `onPool`
says. -/
theorem deliver_swap (feeds now : Feeds) (ix : CompiledInstruction) (swap : DetectedSwap)
    (one : OneSwap feeds tx ix swap)
    (turbine : now.turbine.vaultToPool = feeds.turbine.vaultToPool)
    (proxy : now.proxy.vaultToPool = feeds.proxy.vaultToPool) (delivery : Delivery) :
    ∃ after, deliver powf monitor slot tx now delivery = value after ∧
      after.turbine.vaultToPool = feeds.turbine.vaultToPool ∧
      after.proxy.vaultToPool = feeds.proxy.vaultToPool ∧
      after.cache.get swap.pool = (now.cache.get swap.pool).map
        (onPool powf swap delivery (reaches tx swap.pool ix swap.amountIn now delivery)) := by
  cases delivery with
  | turbine at_ =>
      rcases processTransaction_swap at_ feeds tx ix swap one ⟨now.turbine, now.cache⟩
        (Or.inl turbine) with ⟨after, ran, vaults, cache⟩
      refine ⟨⟨after.cache, after.tracker.detectDexActivity after.cache slot tx, now.proxy⟩, ?_, ?_,
        proxy, ?_⟩
      · rw [deliver, ran]
        rfl
      · rw [vaultToPool_detectDexActivity, vaults, turbine]
      · rw [cache, get_afterHit]
        rfl
  | processor at_ =>
      rcases handleNewTx_swap powf at_ monitor now.cache feeds tx ix swap one with ⟨handled, ran⟩
      refine ⟨⟨applySwap powf at_ now.cache swap, now.turbine, now.proxy⟩, ?_, turbine, proxy, ?_⟩
      · rw [deliver, ran]
        rfl
      · rw [applySwap]
        cases held : now.cache.get swap.pool with
        | none =>
            have moved := now.cache.get_getMut swap.pool swap.pool
              (fun pool => pool.applySwapDelta powf at_ 0 0 swap.aToB)
            rw [if_pos rfl, held] at moved
            exact moved
        | some pool =>
            have moved := now.cache.get_getMut swap.pool swap.pool
              (fun entry => entry.applySwapDelta powf at_ swap.amountIn
                (pool.quote powf at_ swap.aToB swap.amountIn) swap.aToB)
            rw [if_pos rfl, held] at moved
            exact moved
  | proxy at_ =>
      rcases processTransaction_swap at_ feeds tx ix swap one ⟨now.proxy, now.cache⟩
        (Or.inr proxy) with ⟨after, ran, vaults, cache⟩
      refine ⟨⟨after.cache, now.turbine, after.tracker⟩, ?_, turbine, ?_, ?_⟩
      · rw [deliver, ran]
        rfl
      · rw [vaults, proxy]
      · rw [cache, get_afterHit]
        rfl

/-! The swap's pool along a run. -/

/-- The feeds keep their indexes, and hold this pool for the swap. -/
structure Holds (feeds : Feeds) (address : Pubkey) (now : Feeds) (held : DexPool) : Prop where
  turbine : now.turbine.vaultToPool = feeds.turbine.vaultToPool
  proxy : now.proxy.vaultToPool = feeds.proxy.vaultToPool
  cached : now.cache.get address = some held

theorem deliver_holds (feeds now : Feeds) (ix : CompiledInstruction) (swap : DetectedSwap)
    (one : OneSwap feeds tx ix swap) (held : DexPool) (holds : Holds feeds swap.pool now held)
    (delivery : Delivery) :
    deliver powf monitor slot tx now delivery =
        value (delivered powf monitor slot tx now delivery) ∧
      Holds feeds swap.pool (delivered powf monitor slot tx now delivery)
        (onPool powf swap delivery (reaches tx swap.pool ix swap.amountIn now delivery) held) := by
  rcases deliver_swap powf monitor slot tx feeds now ix swap one holds.turbine holds.proxy delivery
    with ⟨after, ran, turbine, proxy, cached⟩
  have same : delivered powf monitor slot tx now delivery = after := by
    rw [delivered, ran]
  rw [same]
  rw [holds.cached] at cached
  exact ⟨ran, turbine, proxy, cached⟩

theorem foldlM_deliver (feeds now : Feeds) (ix : CompiledInstruction) (swap : DetectedSwap)
    (one : OneSwap feeds tx ix swap) (held : DexPool) (holds : Holds feeds swap.pool now held)
    (schedule : List Delivery) :
    schedule.foldlM (deliver powf monitor slot tx) now =
      value (run (delivered powf monitor slot tx) now schedule) := by
  induction schedule generalizing now held with
  | nil => rfl
  | cons delivery rest ih =>
      rcases deliver_holds powf monitor slot tx feeds now ix swap one held holds delivery with
        ⟨ran, next⟩
      rw [List.foldlM_cons, ran, value_bind, run_cons]
      exact ih _ _ next

/-- No tracker reaches the pool along these deliveries. -/
def Unreached (key : Pubkey) (ix : CompiledInstruction) (amountIn : Nat) (feeds : Feeds)
    (schedule : List Delivery) : Prop :=
  ∀ pair ∈ trace (delivered powf monitor slot tx) feeds schedule,
    reaches tx key ix amountIn pair.1 pair.2 = none

/-- The optimistic copy and the fee are those of another pool. -/
structure SameOptimistic (pool held : DexPool) : Prop where
  optimisticA : held.reserveAOptimistic = pool.reserveAOptimistic
  optimisticB : held.reserveBOptimistic = pool.reserveBOptimistic
  shred : held.lastShredUpdate = pool.lastShredUpdate
  fee : held.feeBps = pool.feeBps

theorem SameOptimistic.trans {first second third : DexPool} (here : SameOptimistic first second)
    (later : SameOptimistic second third) : SameOptimistic first third :=
  ⟨later.optimisticA.trans here.optimisticA, later.optimisticB.trans here.optimisticB,
    later.shred.trans here.shred, later.fee.trans here.fee⟩

theorem onPool_unreached (swap : DetectedSwap) (delivery : Delivery) (pool : DexPool) :
    SameOptimistic pool (onPool powf swap delivery none pool) ∧
      (delivery.isProcessor = false → onPool powf swap delivery none pool = pool) := by
  rw [onPool]
  cases delivery.isProcessor with
  | false => exact ⟨⟨rfl, rfl, rfl, rfl⟩, fun _ => rfl⟩
  | true =>
      rcases DexPool.applySwapDelta_eq powf pool delivery.now swap.amountIn
        (pool.quote powf delivery.now swap.aToB swap.amountIn) swap.aToB with ⟨orca, moved⟩
      rw [if_pos rfl, moved]
      exact ⟨⟨rfl, rfl, rfl, rfl⟩, fun absurd => by cases absurd⟩

/-- While no tracker reaches the pool, its optimistic copy stays; without the processor
the whole pool does. -/
theorem unreached_spec (feeds now : Feeds) (ix : CompiledInstruction) (swap : DetectedSwap)
    (one : OneSwap feeds tx ix swap) (held : DexPool) (holds : Holds feeds swap.pool now held)
    (schedule : List Delivery)
    (unreached : Unreached powf monitor slot tx swap.pool ix swap.amountIn now schedule) :
    ∃ after, Holds feeds swap.pool (run (delivered powf monitor slot tx) now schedule) after ∧
      SameOptimistic held after ∧
      ((∀ delivery ∈ schedule, delivery.isProcessor = false) → after = held) := by
  induction schedule generalizing now held with
  | nil => exact ⟨held, holds, ⟨rfl, rfl, rfl, rfl⟩, fun _ => rfl⟩
  | cons delivery rest ih =>
      have next := (deliver_holds powf monitor slot tx feeds now ix swap one held holds delivery).2
      have missed := unreached (now, delivery) List.mem_cons_self
      rw [missed] at next
      rcases ih _ _ next (fun pair member => unreached pair (List.mem_cons_of_mem _ member)) with
        ⟨after, holdsAfter, same, idle⟩
      rcases onPool_unreached powf swap delivery held with ⟨here, still⟩
      refine ⟨after, holdsAfter, here.trans same, ?_⟩
      intro none
      rw [idle (fun other member => none other (List.mem_cons_of_mem _ member)),
        still (none delivery List.mem_cons_self)]

/-- The polled copy, the fee and the kind are those of another pool. -/
structure SamePolled (pool held : DexPool) : Prop where
  reserveA : held.reserveA = pool.reserveA
  reserveB : held.reserveB = pool.reserveB
  fee : held.feeBps = pool.feeBps
  plain : pool.IsXyK → held.IsXyK

theorem SamePolled.trans {first second third : DexPool} (here : SamePolled first second)
    (later : SamePolled second third) : SamePolled first third :=
  ⟨later.reserveA.trans here.reserveA, later.reserveB.trans here.reserveB,
    later.fee.trans here.fee, fun plain => later.plain (here.plain plain)⟩

/-- A tracker's move of a pool is a shred delta. -/
theorem applySimulatedSwap_eq (pool : DexPool) (now : Instant) (isVaultA : Bool) (amountIn : Nat) :
    ∃ deltaA deltaB, pool.applySimulatedSwap now isVaultA amountIn =
      pool.applyShredDelta now deltaA deltaB := by
  rw [DexPool.applySimulatedSwap]
  cases isVaultA with
  | true => exact ⟨_, _, rfl⟩
  | false => exact ⟨_, _, rfl⟩

theorem onPool_tracker (swap : DetectedSwap) (delivery : Delivery) (side : Option Bool)
    (pool : DexPool) (tracker : delivery.isProcessor = false) :
    SamePolled pool (onPool powf swap delivery side pool) := by
  cases side with
  | none =>
      rw [onPool, tracker]
      exact ⟨rfl, rfl, rfl, id⟩
  | some isVaultA =>
      rcases applySimulatedSwap_eq pool delivery.now isVaultA swap.amountIn with
        ⟨deltaA, deltaB, moved⟩
      rw [onPool, tracker, if_neg Bool.false_ne_true, moved, DexPool.applyShredDelta]
      exact ⟨rfl, rfl, rfl, fun plain => ⟨plain.1, plain.2⟩⟩

theorem trackers_spec (feeds now : Feeds) (ix : CompiledInstruction) (swap : DetectedSwap)
    (one : OneSwap feeds tx ix swap) (held : DexPool) (holds : Holds feeds swap.pool now held)
    (schedule : List Delivery) (trackers : ∀ delivery ∈ schedule, delivery.isProcessor = false) :
    ∃ after, Holds feeds swap.pool (run (delivered powf monitor slot tx) now schedule) after ∧
      SamePolled held after := by
  induction schedule generalizing now held with
  | nil => exact ⟨held, holds, ⟨rfl, rfl, rfl, id⟩⟩
  | cons delivery rest ih =>
      have next := (deliver_holds powf monitor slot tx feeds now ix swap one held holds delivery).2
      rcases ih _ _ next (fun other member => trackers other (List.mem_cons_of_mem _ member)) with
        ⟨after, holdsAfter, same⟩
      exact ⟨after, holdsAfter, (onPool_tracker powf swap delivery _ held
        (trackers delivery List.mem_cons_self)).trans same⟩

/-- Every delivery by which a tracker reached the pool is 10 s old at an instant. -/
def LongAgo (key : Pubkey) (ix : CompiledInstruction) (amountIn : Nat) (feeds : Feeds)
    (schedule : List Delivery) (later : Instant) : Prop :=
  ∀ pair ∈ trace (delivered powf monitor slot tx) feeds schedule,
    reaches tx key ix amountIn pair.1 pair.2 ≠ none → 10 ≤ pair.2.now.elapsedSecs later

/-- The optimistic copy is in use after a run only if it was before, or a tracker
wrote it less than 10 s ago. -/
theorem not_inUse_run (feeds now : Feeds) (ix : CompiledInstruction) (swap : DetectedSwap)
    (one : OneSwap feeds tx ix swap) (held : DexPool) (holds : Holds feeds swap.pool now held)
    (schedule : List Delivery) (later : Instant) (idle : ¬ InUse held later)
    (old : LongAgo powf monitor slot tx swap.pool ix swap.amountIn now schedule later) :
    ∃ after, Holds feeds swap.pool (run (delivered powf monitor slot tx) now schedule) after ∧
      ¬ InUse after later := by
  induction schedule generalizing now held with
  | nil => exact ⟨held, holds, idle⟩
  | cons delivery rest ih =>
      have next := (deliver_holds powf monitor slot tx feeds now ix swap one held holds delivery).2
      apply ih _ _ next
      · cases side : reaches tx swap.pool ix swap.amountIn now delivery with
        | none =>
            have same := (onPool_unreached powf swap delivery held).1
            rw [InUse, same.optimisticA, same.optimisticB, same.shred]
            exact idle
        | some isVaultA =>
            have recent := old (now, delivery) List.mem_cons_self (by simp [side])
            have tracker : delivery.isProcessor = false := by
              cases delivery with
              | turbine | proxy => rfl
              | processor => cases side
            rcases applySimulatedSwap_eq held delivery.now isVaultA swap.amountIn with
              ⟨deltaA, deltaB, moved⟩
            rw [onPool, tracker, if_neg Bool.false_ne_true, moved, DexPool.applyShredDelta]
            intro used
            exact absurd used.2.2 (not_lt.mpr recent)
      · exact fun pair member => old pair (List.mem_cons_of_mem _ member)

/-! One count of the swap. -/

/-- What a tracker takes the swap to pay out. -/
def simulatedOut (pool : DexPool) (reserveIn reserveOut amountIn : Nat) : Nat :=
  let netIn := amountIn - wrap 64 (amountIn * pool.feeBps) / 10000
  wrap 64 (reserveOut * netIn / (reserveIn + netIn))

def paidIn (aToB : Bool) (reserves : Nat × Nat) : Nat := if aToB then reserves.1 else reserves.2

def paidOut (aToB : Bool) (reserves : Nat × Nat) : Nat := if aToB then reserves.2 else reserves.1

/-- Reserves with one amount paid in and another paid out. -/
def changedBy (aToB : Bool) (amountIn amountOut : Nat) (reserves : Nat × Nat) : Nat × Nat :=
  if aToB then (reserves.1 + amountIn, reserves.2 - amountOut)
  else (reserves.1 - amountOut, reserves.2 + amountIn)

/-- The law: the reserves read before the first delivery, with the swap's delta, as the
tracker or as the processor has it, added once. -/
def ChangedOnce (pool : DexPool) (swap : DetectedSwap) (start : Instant) (after : Nat × Nat) :
    Prop :=
  let before := pool.effectiveReserves start
  after = changedBy swap.aToB swap.amountIn (simulatedOut pool (paidIn swap.aToB before)
      (paidOut swap.aToB before) swap.amountIn) before ∨
    after = changedBy swap.aToB swap.amountIn
      (RouteExecution.xyQuote pool start swap.aToB swap.amountIn) before

/-- A tracker counts the swap: it alone reaches the pool, it meets the reserves read
first in the copy it writes to, and the copy it writes is the one read last. -/
structure TrackerCounts (feeds : Feeds) (pool : DexPool) (ix : CompiledInstruction)
    (swap : DetectedSwap) (start later : Instant) (earlier : List Delivery) (delivery : Delivery)
    (rest : List Delivery) : Prop where
  early : Unreached powf monitor slot tx swap.pool ix swap.amountIn feeds earlier
  reached : reaches tx swap.pool ix swap.amountIn
    (run (delivered powf monitor slot tx) feeds earlier) delivery = some swap.aToB
  late : Unreached powf monitor slot tx swap.pool ix swap.amountIn
    (run (delivered powf monitor slot tx) feeds (earlier ++ [delivery])) rest
  base : pool.shredBase = pool.effectiveReserves start
  seen : pool.effectiveReserves delivery.now = pool.effectiveReserves start
  untouched : InUse pool delivery.now ∨ ∀ other ∈ earlier, other.isProcessor = false
  recent : delivery.now.elapsedSecs later < 10
  fitsIn : paidIn swap.aToB (pool.effectiveReserves start) + swap.amountIn < 2 ^ 63
  fitsOut : paidOut swap.aToB (pool.effectiveReserves start) < 2 ^ 63

/-- The processor counts the swap: it alone writes the polled copy, and the polled copy
is the one read first, by its quote, and last. -/
structure ProcessorCounts (feeds : Feeds) (pool : DexPool) (ix : CompiledInstruction)
    (swap : DetectedSwap) (start later : Instant) (earlier : List Delivery) (delivery : Delivery)
    (rest : List Delivery) : Prop where
  processor : delivery.isProcessor = true
  alone : ∀ other ∈ earlier ++ rest, other.isProcessor = false
  first : ¬ InUse pool start
  quoted : ¬ InUse pool delivery.now ∧
    LongAgo powf monitor slot tx swap.pool ix swap.amountIn feeds earlier delivery.now
  last : ¬ InUse pool later ∧
    LongAgo powf monitor slot tx swap.pool ix swap.amountIn feeds (earlier ++ delivery :: rest) later
  fits : paidIn swap.aToB (pool.effectiveReserves start) + swap.amountIn ≤ u64Max

/-- The condition: one delivery of the schedule counts the swap, and no other one. -/
def CountsOnce (feeds : Feeds) (pool : DexPool) (ix : CompiledInstruction) (swap : DetectedSwap)
    (start later : Instant) (schedule : List Delivery) : Prop :=
  ∃ earlier delivery rest, schedule = earlier ++ delivery :: rest ∧
    (TrackerCounts powf monitor slot tx feeds pool ix swap start later earlier delivery rest ∨
      ProcessorCounts powf monitor slot tx feeds pool ix swap start later earlier delivery rest)

theorem simulatedOut_lt (pool : DexPool) (reserveIn reserveOut amountIn : Nat)
    (filledIn : 0 < reserveIn) (filledOut : 0 < reserveOut) (small : reserveOut < 2 ^ 63) :
    simulatedOut pool reserveIn reserveOut amountIn < reserveOut := by
  rw [simulatedOut]
  generalize amountIn - wrap 64 (amountIn * pool.feeBps) / 10000 = netIn
  have quotient : reserveOut * netIn / (reserveIn + netIn) < reserveOut := by
    apply Nat.div_lt_of_lt_mul
    calc
      reserveOut * netIn < reserveOut * (reserveIn + netIn) := by
        apply Nat.mul_lt_mul_of_pos_left _ filledOut
        omega
      _ = (reserveIn + netIn) * reserveOut := Nat.mul_comm _ _
  rw [wrap_of_lt 64 _ (by omega)]
  exact quotient

/-- Neither sum of a tracker's delta wraps, and neither comes out empty. -/
theorem addDelta_simulatedDelta (pool : DexPool) (reserveIn reserveOut amountIn : Nat)
    (filledIn : 0 < reserveIn) (filledOut : 0 < reserveOut)
    (smallIn : reserveIn + amountIn < 2 ^ 63) (smallOut : reserveOut < 2 ^ 63) :
    DexPool.addDelta reserveIn (pool.simulatedDelta reserveIn reserveOut amountIn).1 =
        reserveIn + amountIn ∧
      DexPool.addDelta reserveOut (pool.simulatedDelta reserveIn reserveOut amountIn).2 =
        reserveOut - simulatedOut pool reserveIn reserveOut amountIn ∧
      0 < reserveOut - simulatedOut pool reserveIn reserveOut amountIn := by
  have less := simulatedOut_lt pool reserveIn reserveOut amountIn filledIn filledOut smallOut
  have pair : pool.simulatedDelta reserveIn reserveOut amountIn =
      (wrapI64 amountIn, wrapI64 (-wrapI64 (simulatedOut pool reserveIn reserveOut amountIn))) := rfl
  rw [pair]
  generalize simulatedOut pool reserveIn reserveOut amountIn = out at less ⊢
  have paid : wrapI64 (amountIn : Int) = amountIn :=
    wrapI64_of_bounds _ (by omega) (by omega)
  have taken : wrapI64 (-wrapI64 (out : Int)) = -(out : Int) := by
    rw [wrapI64_of_bounds (out : Int) (by omega) (by omega)]
    exact wrapI64_of_bounds _ (by omega) (by omega)
  dsimp only
  rw [paid, taken, ShredReserves.addDelta_of_lt _ _ (by omega) (by omega) (by omega),
    ShredReserves.addDelta_of_lt _ _ smallOut (by omega) (by omega), ShredReserves.shifted,
    ShredReserves.shifted]
  omega

theorem applySimulatedSwap_a (pool : DexPool) (now : Instant) (amountIn : Nat) :
    pool.applySimulatedSwap now true amountIn =
      let delta := pool.simulatedDelta (pool.effectiveReserves now).1 (pool.effectiveReserves now).2
        amountIn
      pool.applyShredDelta now delta.1 delta.2 := by
  rw [DexPool.applySimulatedSwap]
  rcases pool.effectiveReserves now with ⟨ra, rb⟩
  dsimp only
  rw [if_pos rfl]

theorem applySimulatedSwap_b (pool : DexPool) (now : Instant) (amountIn : Nat) :
    pool.applySimulatedSwap now false amountIn =
      let delta := pool.simulatedDelta (pool.effectiveReserves now).2 (pool.effectiveReserves now).1
        amountIn
      pool.applyShredDelta now delta.2 delta.1 := by
  rw [DexPool.applySimulatedSwap]
  rcases pool.effectiveReserves now with ⟨ra, rb⟩
  dsimp only
  rw [if_neg Bool.false_ne_true]

theorem inUse_applyShredDelta (pool : DexPool) (now later : Instant) (deltaA deltaB : Int)
    (recent : now.elapsedSecs later < 10)
    (sumA : 0 < DexPool.addDelta pool.shredBase.1 deltaA)
    (sumB : 0 < DexPool.addDelta pool.shredBase.2 deltaB) :
    InUse (pool.applyShredDelta now deltaA deltaB) later := by
  have written : (pool.applyShredDelta now deltaA deltaB).lastShredUpdate = now := by
    rw [DexPool.applyShredDelta]
  rw [InUse, ShredReserves.applyShredDelta_optimisticA, ShredReserves.applyShredDelta_optimisticB,
    written]
  exact ⟨sumA, sumB, recent⟩

/-- A tracker's move of a pool with positive reserves below `2 ^ 63` is read. -/
theorem applySimulatedSwap_reads (held : DexPool) (now later : Instant) (aToB : Bool)
    (amountIn : Nat) (base : held.shredBase = held.effectiveReserves now)
    (recent : now.elapsedSecs later < 10)
    (positiveA : 0 < (held.effectiveReserves now).1)
    (positiveB : 0 < (held.effectiveReserves now).2)
    (fitsIn : paidIn aToB (held.effectiveReserves now) + amountIn < 2 ^ 63)
    (fitsOut : paidOut aToB (held.effectiveReserves now) < 2 ^ 63) :
    InUse (held.applySimulatedSwap now aToB amountIn) later ∧
      (held.applySimulatedSwap now aToB amountIn).effectiveReserves later =
        changedBy aToB amountIn (simulatedOut held (paidIn aToB (held.effectiveReserves now))
          (paidOut aToB (held.effectiveReserves now)) amountIn) (held.effectiveReserves now) := by
  have used := inUse_applyShredDelta held now later
  rw [base] at used
  cases aToB with
  | true =>
      rcases addDelta_simulatedDelta held _ _ amountIn positiveA positiveB fitsIn fitsOut with
        ⟨first, second, left⟩
      rw [applySimulatedSwap_a]
      dsimp only
      refine ⟨used _ _ recent (by omega) (by omega), ?_⟩
      rw [ShredReserves.effectiveReserves_applyShredDelta _ _ _ _ _ recent, base, first, second,
        if_pos ⟨by omega, left⟩]
      rfl
  | false =>
      rcases addDelta_simulatedDelta held _ _ amountIn positiveB positiveA fitsIn fitsOut with
        ⟨first, second, left⟩
      rw [applySimulatedSwap_b]
      dsimp only
      refine ⟨used _ _ recent (by omega) (by omega), ?_⟩
      rw [ShredReserves.effectiveReserves_applyShredDelta _ _ _ _ _ recent, base, first, second,
        if_pos ⟨left, by omega⟩]
      rfl

theorem hit_spec (now : Instant) (keys : List Pubkey) (amountIn : Nat) (state : Tracked)
    (accounts : List UInt8) (key : Pubkey) (isVaultA : Bool) (held : DexPool)
    (cached : state.cache.get key = some held)
    (found : (hit now keys amountIn state accounts).bind
      (fun entry => if entry.1 = key then some entry.2 else none) = some isVaultA) :
    0 < (held.effectiveReserves now).1 ∧ 0 < (held.effectiveReserves now).2 := by
  rcases Option.bind_eq_some_iff.mp found with ⟨entry, stopped, own⟩
  rw [hit] at stopped
  split at stopped
  · cases stopped
  · rcases Option.map_eq_some_iff.mp stopped with ⟨⟨vault, address, side⟩, at_, same⟩
    rcases reached_spec now keys state accounts vault address side at_ with
      ⟨pool, listed, positive⟩
    subst same
    split at own
    · next here =>
        dsimp only at here
        rw [here, cached] at listed
        cases listed
        exact positive
    · cases own

theorem reaches_spec (key : Pubkey) (ix : CompiledInstruction) (amountIn : Nat) (now : Feeds)
    (delivery : Delivery) (isVaultA : Bool) (held : DexPool) (cached : now.cache.get key = some held)
    (found : reaches tx key ix amountIn now delivery = some isVaultA) :
    delivery.isProcessor = false ∧ 0 < (held.effectiveReserves delivery.now).1 ∧
      0 < (held.effectiveReserves delivery.now).2 := by
  cases delivery with
  | turbine at_ => exact ⟨rfl, hit_spec at_ _ _ _ _ key isVaultA held cached found⟩
  | processor at_ => cases found
  | proxy at_ => exact ⟨rfl, hit_spec at_ _ _ _ _ key isVaultA held cached found⟩

theorem effectiveReserves_of_inUse (pool : DexPool) (now : Instant) (used : InUse pool now) :
    pool.effectiveReserves now = (pool.reserveAOptimistic, pool.reserveBOptimistic) := if_pos used

theorem effectiveReserves_of_polled (pool : DexPool) (now : Instant) (idle : ¬ InUse pool now) :
    pool.effectiveReserves now = (pool.reserveA, pool.reserveB) := if_neg idle

theorem SameOptimistic.inUse {pool held : DexPool} (same : SameOptimistic pool held)
    (now : Instant) : InUse held now ↔ InUse pool now := by
  rw [InUse, InUse, same.optimisticA, same.optimisticB, same.shred]

theorem SameOptimistic.effectiveReserves {pool held : DexPool} (same : SameOptimistic pool held)
    (now : Instant) (used : InUse pool now) :
    held.effectiveReserves now = pool.effectiveReserves now := by
  rw [effectiveReserves_of_inUse pool now used,
    effectiveReserves_of_inUse held now ((same.inUse now).mpr used), same.optimisticA,
    same.optimisticB]

theorem SameOptimistic.shredBase {pool held : DexPool} (same : SameOptimistic pool held)
    (now : Instant) (used : InUse pool now) : held.shredBase = pool.shredBase := by
  rw [DexPool.shredBase, DexPool.shredBase, same.optimisticA, same.optimisticB, if_pos used.1,
    if_pos used.1]

/-- The run in which a tracker counts the swap. -/
theorem changedOnce_of_tracker (feeds : Feeds) (pool : DexPool) (ix : CompiledInstruction)
    (swap : DetectedSwap) (one : OneSwap feeds tx ix swap)
    (cached : feeds.cache.get swap.pool = some pool) (start later : Instant)
    (earlier : List Delivery) (delivery : Delivery) (rest : List Delivery)
    (counts : TrackerCounts powf monitor slot tx feeds pool ix swap start later earlier delivery
      rest) :
    ∃ after, Holds feeds swap.pool
        (run (delivered powf monitor slot tx) feeds (earlier ++ delivery :: rest)) after ∧
      ChangedOnce pool swap start (after.effectiveReserves later) := by
  rcases unreached_spec powf monitor slot tx feeds feeds ix swap one pool ⟨rfl, rfl, cached⟩ earlier
    counts.early with ⟨held, holds, same, idle⟩
  rcases reaches_spec tx swap.pool ix swap.amountIn _ delivery swap.aToB held holds.cached
    counts.reached with ⟨tracker, positiveA, positiveB⟩
  have moved := (deliver_holds powf monitor slot tx feeds _ ix swap one held holds delivery).2
  have simulated : onPool powf swap delivery (some swap.aToB) held =
      held.applySimulatedSwap delivery.now swap.aToB swap.amountIn := by
    rw [onPool, tracker, if_neg Bool.false_ne_true]
  rw [counts.reached, simulated] at moved
  have late := counts.late
  rw [run_append] at late
  rcases unreached_spec powf monitor slot tx feeds _ ix swap one _ moved rest late with
    ⟨after, holdsAfter, sameAfter, -⟩
  have met : held.effectiveReserves delivery.now = pool.effectiveReserves delivery.now ∧
      held.shredBase = pool.shredBase := by
    rcases counts.untouched with used | none
    · exact ⟨same.effectiveReserves delivery.now used, same.shredBase delivery.now used⟩
    · rw [idle none]
      exact ⟨rfl, rfl⟩
  have seen := met.1.trans counts.seen
  rw [seen] at positiveA positiveB
  rcases applySimulatedSwap_reads held delivery.now later swap.aToB swap.amountIn
    (by rw [met.2, counts.base, seen]) counts.recent (by rw [seen]; exact positiveA)
    (by rw [seen]; exact positiveB) (by rw [seen]; exact counts.fitsIn)
    (by rw [seen]; exact counts.fitsOut) with ⟨used, read⟩
  refine ⟨after, ?_, Or.inl ?_⟩
  · rw [run_append]
    exact holdsAfter
  · rw [sameAfter.effectiveReserves later used, read, seen, simulatedOut, simulatedOut, same.fee]

/-- The run in which the processor counts it. -/
theorem changedOnce_of_processor (feeds : Feeds) (pool : DexPool) (ix : CompiledInstruction)
    (swap : DetectedSwap) (one : OneSwap feeds tx ix swap)
    (cached : feeds.cache.get swap.pool = some pool) (plain : pool.IsXyK) (start later : Instant)
    (earlier : List Delivery) (delivery : Delivery) (rest : List Delivery)
    (counts : ProcessorCounts powf monitor slot tx feeds pool ix swap start later earlier delivery
      rest) :
    ∃ after, Holds feeds swap.pool
        (run (delivered powf monitor slot tx) feeds (earlier ++ delivery :: rest)) after ∧
      ChangedOnce pool swap start (after.effectiveReserves later) := by
  have whole : Holds feeds swap.pool feeds pool := ⟨rfl, rfl, cached⟩
  rcases trackers_spec powf monitor slot tx feeds feeds ix swap one pool whole earlier
    (fun other member => counts.alone other (List.mem_append_left rest member)) with
    ⟨held, holds, same⟩
  have quoted : ¬ InUse held delivery.now := by
    rcases not_inUse_run powf monitor slot tx feeds feeds ix swap one pool whole earlier delivery.now
      counts.quoted.1 counts.quoted.2 with ⟨other, holdsOther, idle⟩
    have found := holds.cached.symm.trans holdsOther.cached
    cases found
    exact idle
  have moved := (deliver_holds powf monitor slot tx feeds _ ix swap one held holds delivery).2
  rcases trackers_spec powf monitor slot tx feeds _ ix swap one _ moved rest
    (fun other member => counts.alone other (List.mem_append_right earlier member)) with
    ⟨after, holdsAfter, sameAfter⟩
  have joined : Holds feeds swap.pool
      (run (delivered powf monitor slot tx) feeds (earlier ++ delivery :: rest)) after := by
    rw [run_append]
    exact holdsAfter
  have last : ¬ InUse after later := by
    rcases not_inUse_run powf monitor slot tx feeds feeds ix swap one pool whole
      (earlier ++ delivery :: rest) later counts.last.1 counts.last.2 with ⟨other, holdsOther, idle⟩
    have found := joined.cached.symm.trans holdsOther.cached
    cases found
    exact idle
  have before := effectiveReserves_of_polled pool start counts.first
  have out : held.quote powf delivery.now swap.aToB swap.amountIn =
      RouteExecution.xyQuote pool start swap.aToB swap.amountIn := by
    rw [RouteExecution.quote_of_isXyK powf held delivery.now _ _ (same.plain plain),
      RouteExecution.xyQuote, RouteExecution.xyQuote, effectiveReserves_of_polled held _ quoted,
      before, same.reserveA, same.reserveB, same.fee]
  have fits := counts.fits
  rcases DexPool.applySwapDelta_eq powf held delivery.now swap.amountIn
    (RouteExecution.xyQuote pool start swap.aToB swap.amountIn) swap.aToB with ⟨orca, swapped⟩
  rw [onPool.eq_def, if_pos counts.processor, out, swapped] at sameAfter
  refine ⟨after, joined, Or.inr ?_⟩
  rw [effectiveReserves_of_polled after later last, sameAfter.reserveA, sameAfter.reserveB,
    same.reserveA, same.reserveB, before]
  rw [before, paidIn] at fits
  cases aToB : swap.aToB with
  | true =>
      rw [aToB, if_pos rfl] at fits
      rw [if_pos rfl, if_pos rfl, saturatingAdd64, Nat.min_eq_left fits]
      rfl
  | false =>
      rw [aToB, if_neg Bool.false_ne_true] at fits
      rw [if_neg Bool.false_ne_true, if_neg Bool.false_ne_true, saturatingAdd64,
        Nat.min_eq_left fits]
      rfl

/-- Every schedule of deliveries completes, and one that counts the swap once leaves the
reserves read first with the swap's delta added once. -/
theorem counted_once (feeds : Feeds) (pool : DexPool) (ix : CompiledInstruction)
    (swap : DetectedSwap) (one : OneSwap feeds tx ix swap)
    (cached : feeds.cache.get swap.pool = some pool) (plain : pool.IsXyK) (start later : Instant)
    (schedule : List Delivery)
    (counts : CountsOnce powf monitor slot tx feeds pool ix swap start later schedule) :
    ∃ after held, schedule.foldlM (deliver powf monitor slot tx) feeds = value after ∧
      after.cache.get swap.pool = some held ∧
      ChangedOnce pool swap start (held.effectiveReserves later) := by
  have completes := foldlM_deliver powf monitor slot tx feeds feeds ix swap one pool
    ⟨rfl, rfl, cached⟩ schedule
  rcases counts with ⟨earlier, delivery, rest, same, tracker | processor⟩
  · rcases changedOnce_of_tracker powf monitor slot tx feeds pool ix swap one cached start later
      earlier delivery rest tracker with ⟨held, holds, changed⟩
    subst same
    exact ⟨_, held, completes, holds.cached, changed⟩
  · rcases changedOnce_of_processor powf monitor slot tx feeds pool ix swap one cached plain start
      later earlier delivery rest processor with ⟨held, holds, changed⟩
    subst same
    exact ⟨_, held, completes, holds.cached, changed⟩

end Runs

/-! One Raydium swap of 100 on a pool polled at (1000, 1000). -/

def tradedPool : DexPool := { ShredReserves.polledPool with poolAddress := .ofNat 2 }

def swapIx : CompiledInstruction :=
  ⟨1, [0, 2, 3], [9, 100] ++ List.replicate 15 0⟩

def swapTx : TxMessage := ⟨[.ofNat 1, DexPrograms.raydiumAmmV4, .ofNat 2, .ofNat 3], [swapIx]⟩

def detectedSwap : DetectedSwap := ⟨.raydiumAmmV4, .ofNat 2, 100, 0, true⟩

/-- The Turbine pipeline's tracker knows vault A of the pool. -/
def feedsOver (proxy : ShredDeltaTracker) : Feeds :=
  ⟨PoolStateCache.new.upsert tradedPool,
    (ShredDeltaTracker.new HashMap.empty).registerVault (.ofNat 3) (.ofNat 2) true, proxy⟩

def twoTrackers : Feeds :=
  feedsOver ((ShredDeltaTracker.new HashMap.empty).registerVault (.ofNat 3) (.ofNat 2) true)

def oneTracker : Feeds := feedsOver (.new HashMap.empty)

def schedule : List Delivery := [.turbine 0, .processor 0, .proxy 0]

theorem oneSwap_swapTx (proxy : ShredDeltaTracker) :
    OneSwap (feedsOver proxy) swapTx swapIx detectedSwap where
  program := Or.inl rfl
  decoded := by decide +kernel
  others := ⟨[], [], rfl, by simp⟩

theorem cached_tradedPool (proxy : ShredDeltaTracker) :
    (feedsOver proxy).cache.get detectedSwap.pool = some tradedPool := rfl

/-- Both trackers move the optimistic copy: a reader is given (1200, 835). -/
theorem two_trackers_count_twice :
    OneSwap twoTrackers swapTx swapIx detectedSwap ∧ tradedPool.IsXyK ∧
      twoTrackers.cache.get detectedSwap.pool = some tradedPool ∧
      ∃ after held, schedule.foldlM (deliver (fun base _ => base : ℚ → ℚ → ℚ) false 0 swapTx)
          twoTrackers = value after ∧
        after.cache.get detectedSwap.pool = some held ∧
        ¬ ChangedOnce tradedPool detectedSwap 0 (held.effectiveReserves 0) := by
  have one := oneSwap_swapTx
    ((ShredDeltaTracker.new HashMap.empty).registerVault (.ofNat 3) (.ofNat 2) true)
  have start : Holds twoTrackers detectedSwap.pool twoTrackers tradedPool :=
    ⟨rfl, rfl, cached_tradedPool _⟩
  have completes := foldlM_deliver (fun base _ => base : ℚ → ℚ → ℚ) false 0 swapTx twoTrackers
    twoTrackers swapIx detectedSwap one tradedPool start schedule
  have twice : ((run (delivered (fun base _ => base : ℚ → ℚ → ℚ) false 0 swapTx) twoTrackers
      schedule).cache.get detectedSwap.pool).map (fun held => held.effectiveReserves 0) =
        some (1200, 835) := by decide +kernel
  rcases Option.map_eq_some_iff.mp twice with ⟨held, cached, reads⟩
  refine ⟨one, ⟨rfl, rfl⟩, cached_tradedPool _, _, held, completes, cached, ?_⟩
  rw [reads, ChangedOnce]
  decide +kernel

theorem countsOnce_oneTracker :
    CountsOnce (fun base _ => base : ℚ → ℚ → ℚ) false 0 swapTx oneTracker
      tradedPool swapIx detectedSwap 0 0 schedule := by
  refine ⟨[], .turbine 0, [.processor 0, .proxy 0], rfl, Or.inl ?_⟩
  constructor
  · intro pair member
    cases member
  · decide +kernel
  · unfold Unreached
    decide +kernel
  · decide
  · rfl
  · exact Or.inr (fun other member => by cases member)
  · decide
  · decide
  · decide

theorem counted_once_oneTracker :
    ∃ after held, schedule.foldlM (deliver (fun base _ => base : ℚ → ℚ → ℚ) false 0 swapTx)
        oneTracker = value after ∧
      after.cache.get detectedSwap.pool = some held ∧
      ChangedOnce tradedPool detectedSwap 0 (held.effectiveReserves 0) :=
  counted_once (fun base _ => base : ℚ → ℚ → ℚ) false 0 swapTx oneTracker tradedPool
    swapIx detectedSwap (oneSwap_swapTx _) (cached_tradedPool _) ⟨rfl, rfl⟩ 0 0 schedule
    countsOnce_oneTracker

end Helios.Deliveries
