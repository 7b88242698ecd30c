import Helios.Deliveries

/-! Three observers of the swaps in a transaction: the decoder, the tracker's simulation
and its count of active pools. -/

namespace Helios.SwapObservers

open Decoded Machine Runs SwapDecoder Tracked

/-- `dex_to_program_id`. -/
def dexToProgramId : SwapDex → Pubkey
  | .raydiumAmmV4 => DexPrograms.raydiumAmmV4
  | .raydiumClmm => DexPrograms.raydiumClmm
  | .orcaWhirlpool => DexPrograms.orcaWhirlpool
  | .meteoraDlmm => DexPrograms.meteoraDlmm
  | .meteoraDynamicAmm => meteoraDynamicProgram
  | .pumpSwap => DexPrograms.pumpswap
  | .pumpFun => pumpFunProgram
  | .jupiter => jupiterProgram
  | .fluxbeam => DexPrograms.fluxbeam
  | .saber => DexPrograms.saber
  | .raydiumCpmm => DexPrograms.raydiumCpmm

/-- Every swap a decoder finds is of one venue. -/
def Reports (decoder : Decoder) (prog : Pubkey) : Prop :=
  ∀ data accs accounts swap, decoder data accs accounts = some swap →
    dexToProgramId swap.dex = prog

theorem reports_tagged (dex : SwapDex) (tags : List (List UInt8)) (tagLength least place : Nat)
    (aToB : List UInt8 → Bool) :
    Reports (decodeTagged dex tags tagLength least place aToB) (dexToProgramId dex) := by
  intro data accs accounts swap found
  rw [decodeTagged] at found
  split at found
  · cases found
  · split at found
    · cases found
    · rcases Option.map_eq_some_iff.mp found with ⟨pool, -, same⟩
      rw [← same]

theorem reports_jupiter : Reports decodeJupiter (dexToProgramId .jupiter) := by
  intro data accs accounts swap found
  rw [decodeJupiter] at found
  split at found
  · cases found
  · split at found
    · cases found
    · rcases Option.map_eq_some_iff.mp found with ⟨pool, -, same⟩
      rw [← same]

theorem reports_ite (test : Prop) [Decidable test] (here decoder : Decoder) (later : Option Decoder)
    (prog : Pubkey) (first : test → Reports here prog)
    (rest : later = some decoder → Reports decoder prog)
    (found : (if test then some here else later) = some decoder) : Reports decoder prog := by
  split at found
  · next holds =>
      rw [← Option.some.inj found]
      exact first holds
  · exact rest found

theorem reports_decoderFor (prog : Pubkey) (decoder : Decoder)
    (found : decoderFor prog = some decoder) : Reports decoder prog := by
  revert found
  unfold decoderFor
  apply reports_ite _ _ _ _ _ (fun same => same ▸ reports_tagged _ _ _ _ _ _)
  apply reports_ite _ _ _ _ _ (fun same => same ▸ reports_tagged _ _ _ _ _ _)
  apply reports_ite _ _ _ _ _ (fun same => same ▸ reports_tagged _ _ _ _ _ _)
  apply reports_ite _ _ _ _ _ (fun same => same ▸ reports_tagged _ _ _ _ _ _)
  apply reports_ite _ _ _ _ _ (fun same => same ▸ reports_tagged _ _ _ _ _ _)
  apply reports_ite _ _ _ _ _ (fun same => same ▸ reports_tagged _ _ _ _ _ _)
  apply reports_ite _ _ _ _ _ (fun same => same ▸ reports_tagged _ _ _ _ _ _)
  apply reports_ite _ _ _ _ _ (fun same => same ▸ reports_tagged _ _ _ _ _ _)
  apply reports_ite _ _ _ _ _ (fun same => same ▸ reports_tagged _ _ _ _ _ _)
  apply reports_ite _ _ _ _ _ (fun same => same ▸ reports_jupiter)
  apply reports_ite _ _ _ _ _ (fun same => same ▸ reports_tagged _ _ _ _ _ _)
  exact nofun

/-- A decoded swap is of the program the instruction names. -/
theorem program_of_decodeSwap (keys : List Pubkey) (ix : CompiledInstruction) (swap : DetectedSwap)
    (found : decodeSwap keys ix = some swap) :
    keys[ix.programIdIndex.toNat]? = some (dexToProgramId swap.dex) := by
  rcases Option.bind_eq_some_iff.mp found with ⟨prog, named, found⟩
  rcases Option.bind_eq_some_iff.mp found with ⟨decoder, known, found⟩
  rw [reports_decoderFor prog decoder known _ _ _ _ found]
  exact named

/-! The venues that more than one of the observers knows. -/

/-- How the decoder and the tracker recognise a swap of a venue. The amount stands right
behind the tag for both. -/
structure Venue where
  program : Pubkey
  dex : SwapDex
  tags : List (List UInt8)
  tagLength : Nat
  least : Nat
  poolPlace : Nat
  aToB : List UInt8 → Bool
  /-- The length the tracker asks for. -/
  trackerLeast : Nat
  /-- The tracker looks at the tag. -/
  tagTested : Bool

namespace Venue

def raydium : Venue :=
  ⟨DexPrograms.raydiumAmmV4, .raydiumAmmV4, [[9]], 1, 17, 1, always, 9, true⟩

def pumpSwap : Venue :=
  ⟨DexPrograms.pumpswap, .pumpSwap, [pumpSwapBuyDisc, pumpSwapSellDisc], 8, 16, 0,
    (fun data => decide (data.take 8 = pumpSwapBuyDisc)), 16, false⟩

def orca : Venue :=
  ⟨DexPrograms.orcaWhirlpool, .orcaWhirlpool, [orcaSwapDisc], 8, 42, 2, flagAt 41, 0, false⟩

def meteora : Venue :=
  ⟨DexPrograms.meteoraDlmm, .meteoraDlmm, [meteoraSwapDisc], 8, 24, 0, always, 0, false⟩

def simulated : List Venue := [raydium, pumpSwap]
def active : List Venue := [raydium, orca, meteora, pumpSwap]

variable (venue : Venue)

def decoder : Decoder :=
  decodeTagged venue.dex venue.tags venue.tagLength venue.least venue.poolPlace venue.aToB

/-- The data are a swap to the decoder. -/
def Recognised (data : List UInt8) : Prop :=
  venue.least ≤ data.length ∧ data.take venue.tagLength ∈ venue.tags

instance (data : List UInt8) : Decidable (venue.Recognised data) := by
  unfold Recognised
  infer_instance

/-- The data are a swap to the tracker. -/
def Taken (data : List UInt8) : Prop :=
  venue.trackerLeast ≤ data.length ∧
    (venue.tagTested = true → data.take venue.tagLength ∈ venue.tags)

instance (data : List UInt8) : Decidable (venue.Taken data) := by
  unfold Taken
  infer_instance

def amountIn (data : List UInt8) : Nat := u64At venue.tagLength data

/-- The pool of an instruction the decoder recognises. -/
def swapPool (keys : List Pubkey) (ix : CompiledInstruction) : Option Pubkey :=
  if venue.Recognised ix.data then accountAt venue.poolPlace ix.accounts keys else none

theorem decoder_eq (keys : List Pubkey) (ix : CompiledInstruction) :
    venue.decoder ix.data ix.accounts keys = (venue.swapPool keys ix).map (fun pool => {
      dex := venue.dex, pool
      amountIn := venue.amountIn ix.data
      amountOutMin :=
        if venue.tagLength + 16 ≤ ix.data.length then u64At (venue.tagLength + 8) ix.data else 0
      aToB := venue.aToB ix.data }) := by
  rw [decoder, decodeTagged, swapPool]
  by_cases recognised : venue.Recognised ix.data
  · rw [if_pos recognised, if_neg (not_lt.mpr recognised.1), if_neg (not_not.mpr recognised.2)]
    rfl
  · rw [if_neg recognised, Option.map_none]
    split
    · rfl
    · next long =>
        rw [if_pos (fun known => recognised ⟨not_lt.mp long, known⟩)]

theorem decoderFor_program (member : venue ∈ active) :
    decoderFor venue.program = some venue.decoder ∧ dexToProgramId venue.dex = venue.program := by
  simp only [active, List.mem_cons, List.not_mem_nil, or_false] at member
  rcases member with rfl | rfl | rfl | rfl
  · exact ⟨decoderFor_dexProgramFor .raydiumAmmV4, rfl⟩
  · exact ⟨decoderFor_dexProgramFor .orcaWhirlpool, rfl⟩
  · exact ⟨decoderFor_dexProgramFor .meteoraDlmm, rfl⟩
  · exact ⟨decoderFor_dexProgramFor .pumpSwap, rfl⟩

end Venue

/-! What each observer makes of one instruction. -/

/-- The amount the tracker reads off a swap, without the slices. -/
def amountSeen (pid : Pubkey) (data : List UInt8) : Option Nat :=
  if pid = DexPrograms.raydiumAmmV4 then
    if Venue.raydium.Taken data then some (Venue.raydium.amountIn data) else none
  else if pid = DexPrograms.pumpswap ∧ Venue.pumpSwap.Taken data then
    some (Venue.pumpSwap.amountIn data)
  else none

theorem swapAmount_eq (pid : Pubkey) (data : List UInt8) :
    swapAmount pid data = value (amountSeen pid data) := by
  rw [swapAmount, amountSeen]
  split
  · cases data with
    | nil => rfl
    | cons byte rest =>
        have tagged : Venue.raydium.Taken (byte :: rest) ↔
            9 ≤ (byte :: rest).length ∧ byte = 9 := by
          simp [Venue.Taken, Venue.raydium]
        split
        · next short =>
            rw [if_neg (fun taken => absurd (tagged.mp taken).1 (not_le.mpr short))]
            rfl
        · next long =>
            change (if byte = 9 then _ else _) = _
            split
            · next nine =>
                rw [if_pos (tagged.mpr ⟨not_lt.mp long, nine⟩),
                  Account.sliceU64_of_inside (byte :: rest) 1 (not_lt.mp long)]
                rfl
            · next other =>
                rw [if_neg (fun taken => other (tagged.mp taken).2)]
                rfl
  · have taken : Venue.pumpSwap.Taken data ↔ 16 ≤ data.length := by
      simp [Venue.Taken, Venue.pumpSwap]
    simp only [taken]
    split
    · next long =>
        rw [Account.sliceU64_of_inside data 8 long.2]
        rfl
    · rfl

/-- The delta the tracker applies for an instruction: pool, amount and direction. -/
def deltaOf (now : Instant) (keys : List Pubkey) (state : Tracked) (ix : CompiledInstruction) :
    Option (Pubkey × Nat × Bool) :=
  match (keys[ix.programIdIndex.toNat]?).bind (fun pid => amountSeen pid ix.data) with
  | none => none
  | some amountIn =>
      if amountIn = 0 then none
      else (reached now keys state ix.accounts).map
        (fun (_, pool, isVaultA) => (pool, amountIn, isVaultA))

/-- The state after the tracker's first pass over an instruction. -/
def afterSwap (now : Instant) (keys : List Pubkey) (state : Tracked) (ix : CompiledInstruction) :
    Tracked :=
  match onSwap now keys state ix with
  | value after => after
  | _ => state

theorem onSwap_eq (now : Instant) (keys : List Pubkey) (state : Tracked)
    (ix : CompiledInstruction) :
    onSwap now keys state ix = value (afterSwap now keys state ix) := by
  rcases returns_onSwap now keys state ix with ⟨after, same⟩
  rw [afterSwap, same]

def scanned (state : Tracked) : Tracked :=
  { state with tracker :=
    { state.tracker with txsScanned := wrap 64 (state.tracker.txsScanned + 1) } }

/-- The tracker's first pass as a run. -/
theorem processTransaction_eq (now : Instant) (state : Tracked) (tx : TxMessage) :
    processTransaction now state tx =
      tx.instructions.foldlM (onTransfer tx.accountKeys)
        (run (afterSwap now tx.accountKeys) (scanned state) tx.instructions) := by
  have pass : ∀ start : Tracked, tx.instructions.foldlM (onSwap now tx.accountKeys) start =
      value (run (afterSwap now tx.accountKeys) start tx.instructions) := by
    intro start
    induction tx.instructions generalizing start with
    | nil => rfl
    | cons ix rest ih => rw [List.foldlM_cons, onSwap_eq, value_bind, ih, run_cons]
  rw [processTransaction, pass, value_bind, scanned]

/-- The vault, the pool, the side and the amount of the swap the tracker simulates. -/
def simulated (now : Instant) (keys : List Pubkey) (state : Tracked) (ix : CompiledInstruction) :
    Option (Pubkey × Pubkey × Bool × Nat) :=
  match (keys[ix.programIdIndex.toNat]?).bind (fun pid => amountSeen pid ix.data) with
  | none => none
  | some amountIn =>
      if amountIn = 0 then none
      else (reached now keys state ix.accounts).map
        (fun (vault, pool, isVaultA) => (vault, pool, isVaultA, amountIn))

theorem deltaOf_eq (now : Instant) (keys : List Pubkey) (state : Tracked)
    (ix : CompiledInstruction) :
    deltaOf now keys state ix = (simulated now keys state ix).map
      (fun (_, pool, isVaultA, amountIn) => (pool, amountIn, isVaultA)) := by
  rw [deltaOf, simulated]
  cases (keys[ix.programIdIndex.toNat]?).bind (fun pid => amountSeen pid ix.data) with
  | none => rfl
  | some amountIn =>
      dsimp only
      split
      · rfl
      · rw [Option.map_map]
        rfl

/-- No pool, no mark and no entry of the index is touched. -/
structure Unmoved (before after : Tracked) : Prop where
  pools : after.cache.inner = before.cache.inner
  vaults : after.tracker.vaultToPool = before.tracker.vaultToPool
  dirty : after.tracker.dirtyVaults = before.tracker.dirtyVaults

theorem Unmoved.refl (state : Tracked) : Unmoved state state := ⟨rfl, rfl, rfl⟩

/-- A pass over an instruction does what its simulated swap does, if there is one. -/
theorem afterSwap_spec (now : Instant) (keys : List Pubkey) (state : Tracked)
    (ix : CompiledInstruction) :
    match simulated now keys state ix with
    | none => Unmoved state (afterSwap now keys state ix)
    | some (vault, pool, isVaultA, amountIn) =>
        afterSwap now keys state ix = state.swapped now vault pool isVaultA amountIn := by
  have ran := onSwap_eq now keys state ix
  rw [onSwap] at ran
  rw [simulated]
  cases named : keys[ix.programIdIndex.toNat]? with
  | none =>
      rw [named] at ran
      rw [← value.inj ran]
      exact Unmoved.refl state
  | some pid =>
      rw [named] at ran
      dsimp only [Option.bind_some] at ran ⊢
      split at ran
      · rw [swapAmount_eq, value_bind] at ran
        cases seen : amountSeen pid ix.data with
        | none =>
            rw [seen] at ran
            rw [← value.inj ran]
            exact Unmoved.refl state
        | some amountIn =>
            rw [seen] at ran
            dsimp only at ran ⊢
            by_cases zero : amountIn = 0
            · rw [if_pos zero] at ran ⊢
              rw [← value.inj ran]
              exact Unmoved.refl state
            · rw [if_neg zero] at ran ⊢
              rw [← value.inj ran, simulateSwap_eq]
              cases reached now keys state ix.accounts with
              | none => exact Unmoved.refl state
              | some found => rfl
      · next other =>
          have unseen : amountSeen pid ix.data = none := by
            rw [amountSeen, if_neg (fun same => other (Or.inl same)),
              if_neg (fun both => other (Or.inr both.1))]
          rw [unseen]
          split at ran
          · split at ran
            · rw [← value.inj ran]
              exact ⟨rfl, rfl, rfl⟩
            · rw [← value.inj ran]
              exact Unmoved.refl state
          · rw [← value.inj ran]
            exact Unmoved.refl state

/-- A pass over an instruction changes the pool of its delta, and no other pool. -/
theorem afterSwap_inner (now : Instant) (keys : List Pubkey) (state : Tracked)
    (ix : CompiledInstruction) :
    (afterSwap now keys state ix).cache.inner =
      match deltaOf now keys state ix with
      | none => state.cache.inner
      | some (pool, amountIn, isVaultA) =>
          HashMap.modify state.cache.inner pool
            (fun held => held.applySimulatedSwap now isVaultA amountIn) := by
  have spec := afterSwap_spec now keys state ix
  rw [deltaOf_eq]
  cases hit : simulated now keys state ix with
  | none =>
      rw [hit] at spec
      exact spec.pools
  | some swap =>
      rw [hit] at spec
      rw [spec]
      rfl

/-- The swap of the two simulated venues that the decoder reports for a cached pool. -/
def reported (keys : List Pubkey) (state : Tracked) (ix : CompiledInstruction) :
    Option (Pubkey × Nat × Bool) :=
  (decodeSwap keys ix).bind (fun swap =>
    if (swap.dex = .raydiumAmmV4 ∨ swap.dex = .pumpSwap) ∧ (state.cache.get swap.pool).isSome then
      some (swap.pool, swap.amountIn, swap.aToB)
    else none)

/-- The pool `detect_dex_activity` counts for an instruction. -/
def counted (keys : List Pubkey) (ix : CompiledInstruction) : Option Pubkey :=
  match (keys[ix.programIdIndex.toNat]?).bind ShredDeltaTracker.identifyDex with
  | none => none
  | some _ => accountAt 0 ix.accounts keys

/-- The pool the decoder reports for an instruction of the four venues. -/
def reportedPool (keys : List Pubkey) (ix : CompiledInstruction) : Option Pubkey :=
  (decodeSwap keys ix).bind (fun swap =>
    if swap.dex ∈ [.raydiumAmmV4, .orcaWhirlpool, .meteoraDlmm, .pumpSwap] then some swap.pool
    else none)

theorem swapCounts_noteActivity (cache : PoolStateCache) (slot : Nat) (tracker : ShredDeltaTracker)
    (dex : String) (pool other : Pubkey) :
    ((ShredDeltaTracker.noteActivity cache slot tracker dex pool).poolSwapCounts.get other).getD 0 =
      if other = pool then wrap 64 ((tracker.poolSwapCounts.get pool).getD 0 + 1)
      else (tracker.poolSwapCounts.get other).getD 0 := by
  have insert : (HashMap.get (tracker.poolSwapCounts.insert pool
      (wrap 64 ((tracker.poolSwapCounts.get pool).getD 0 + 1))) other).getD 0 =
      if other = pool then wrap 64 ((tracker.poolSwapCounts.get pool).getD 0 + 1)
      else (tracker.poolSwapCounts.get other).getD 0 := by
    by_cases same : other = pool
    · rw [if_pos same, same, HashMap.get_insert, Option.getD_some]
    · rw [if_neg same, HashMap.get_insert_ne _ _ _ _ same]
  rw [ShredDeltaTracker.noteActivity]
  dsimp only
  split
  · exact insert
  · exact insert

/-- The count of a pool grows by the instructions it is counted for. -/
theorem swapCounts_detect (cache : PoolStateCache) (slot : Nat) (tracker : ShredDeltaTracker)
    (tx : TxMessage) (pool : Pubkey) :
    wrap 64 (((ShredDeltaTracker.detectDexActivity cache slot tracker tx).poolSwapCounts.get
        pool).getD 0) =
      wrap 64 ((tracker.poolSwapCounts.get pool).getD 0 +
        (tx.instructions.filterMap (counted tx.accountKeys)).count pool) := by
  rw [ShredDeltaTracker.detectDexActivity]
  induction tx.instructions generalizing tracker with
  | nil => rfl
  | cons ix rest ih =>
      rw [List.foldl_cons, ih, List.filterMap_cons, ShredDeltaTracker.onActivity, counted]
      cases (tx.accountKeys[ix.programIdIndex.toNat]?).bind ShredDeltaTracker.identifyDex with
      | none => rfl
      | some dex =>
          cases accountAt 0 ix.accounts tx.accountKeys with
          | none => rfl
          | some seen =>
              dsimp only
              rw [swapCounts_noteActivity, List.count_cons]
              by_cases same : pool = seen
              · rw [if_pos same, same]
                simp only [wrap, Nat.mod_add_mod, beq_self_eq_true, if_true]
                congr 1
                omega
              · rw [if_neg same, if_neg (by simpa using Ne.symm same), Nat.add_zero]

/-! Agreement, and the condition for it. -/

/-- On every instruction the three observers see the same: the simulated deltas are the
swaps reported for cached pools, and the counted pools are those reported. -/
def ObserversAgree (now : Instant) (state : Tracked) (tx : TxMessage) : Prop :=
  (∀ pair ∈ trace (afterSwap now tx.accountKeys) (scanned state) tx.instructions,
    deltaOf now tx.accountKeys pair.1 pair.2 = reported tx.accountKeys pair.1 pair.2) ∧
  ∀ ix ∈ tx.instructions, counted tx.accountKeys ix = reportedPool tx.accountKeys ix

/-- For Raydium v4 and PumpSwap: the first vault the tracker stops at is that of the
decoded pool on the side paid in, or neither sees a swap. -/
def SwapSeenAlike (now : Instant) (keys : List Pubkey) (state : Tracked)
    (ix : CompiledInstruction) (venue : Venue) : Prop :=
  match (venue.swapPool keys ix).filter (fun pool => (state.cache.get pool).isSome) with
  | some pool => venue.Taken ix.data ∧ venue.amountIn ix.data ≠ 0 ∧
      ∃ vault, reached now keys state ix.accounts = some (vault, pool, venue.aToB ix.data)
  | none => ¬ venue.Taken ix.data ∨ venue.amountIn ix.data = 0 ∨
      reached now keys state ix.accounts = none

/-- For all four venues: the first account is the decoded pool, or there is neither. -/
def PoolSeenAlike (keys : List Pubkey) (ix : CompiledInstruction) (venue : Venue) : Prop :=
  accountAt 0 ix.accounts keys = venue.swapPool keys ix

/-- The condition: every instruction of the venues is seen alike. -/
structure SeenAlike (now : Instant) (state : Tracked) (tx : TxMessage) : Prop where
  swaps : ∀ pair ∈ trace (afterSwap now tx.accountKeys) (scanned state) tx.instructions,
    ∀ venue ∈ Venue.simulated,
      tx.accountKeys[pair.2.programIdIndex.toNat]? = some venue.program →
        SwapSeenAlike now tx.accountKeys pair.1 pair.2 venue
  pools : ∀ ix ∈ tx.instructions, ∀ venue ∈ Venue.active,
    tx.accountKeys[ix.programIdIndex.toNat]? = some venue.program →
      PoolSeenAlike tx.accountKeys ix venue

theorem decodeSwap_of_venue (keys : List Pubkey) (ix : CompiledInstruction) (venue : Venue)
    (member : venue ∈ Venue.active)
    (named : keys[ix.programIdIndex.toNat]? = some venue.program) :
    decodeSwap keys ix = venue.decoder ix.data ix.accounts keys := by
  rw [decodeSwap_of_program keys ix venue.program named, (venue.decoderFor_program member).1]
  rfl

/-- A swap reported for one of some venues names the venue's program. -/
theorem venue_of_decodeSwap (keys : List Pubkey) (ix : CompiledInstruction) (swap : DetectedSwap)
    (found : decodeSwap keys ix = some swap) (venue : Venue) (member : venue ∈ Venue.active)
    (same : swap.dex = venue.dex) : keys[ix.programIdIndex.toNat]? = some venue.program := by
  rw [program_of_decodeSwap keys ix swap found, same, (venue.decoderFor_program member).2]

theorem simulated_active (venue : Venue) (member : venue ∈ Venue.simulated) :
    venue ∈ Venue.active := by
  simp only [Venue.simulated, List.mem_cons, List.not_mem_nil, or_false] at member
  simp only [Venue.active, List.mem_cons]
  rcases member with same | same
  · exact Or.inl same
  · exact Or.inr (Or.inr (Or.inr (Or.inl same)))

theorem simulated_dex (dex : SwapDex) :
    (dex = .raydiumAmmV4 ∨ dex = .pumpSwap) ↔ ∃ venue ∈ Venue.simulated, dex = venue.dex := by
  simp [Venue.simulated, Venue.raydium, Venue.pumpSwap]

theorem active_dex (dex : SwapDex) :
    dex ∈ [SwapDex.raydiumAmmV4, .orcaWhirlpool, .meteoraDlmm, .pumpSwap] ↔
      ∃ venue ∈ Venue.active, dex = venue.dex := by
  simp [Venue.active, Venue.raydium, Venue.orca, Venue.meteora, Venue.pumpSwap]

theorem amountSeen_of_venue (venue : Venue) (member : venue ∈ Venue.simulated)
    (data : List UInt8) :
    amountSeen venue.program data =
      if venue.Taken data then some (venue.amountIn data) else none := by
  simp only [Venue.simulated, List.mem_cons, List.not_mem_nil, or_false] at member
  rcases member with rfl | rfl
  · exact if_pos rfl
  · rw [amountSeen, if_neg (show Venue.pumpSwap.program ≠ DexPrograms.raydiumAmmV4 from
      pumpswap_ne_raydium)]
    by_cases taken : Venue.pumpSwap.Taken data
    · rw [if_pos ⟨rfl, taken⟩, if_pos taken]
    · rw [if_neg (fun both => taken both.2), if_neg taken]

theorem deltaOf_of_venue (now : Instant) (keys : List Pubkey) (state : Tracked)
    (ix : CompiledInstruction) (venue : Venue) (member : venue ∈ Venue.simulated)
    (named : keys[ix.programIdIndex.toNat]? = some venue.program) :
    deltaOf now keys state ix =
      if venue.Taken ix.data ∧ venue.amountIn ix.data ≠ 0 then
        (reached now keys state ix.accounts).map
          (fun found => (found.2.1, venue.amountIn ix.data, found.2.2))
      else none := by
  rw [deltaOf, named, Option.bind_some, amountSeen_of_venue venue member]
  by_cases taken : venue.Taken ix.data
  · rw [if_pos taken]
    by_cases zero : venue.amountIn ix.data = 0
    · rw [if_neg (fun both => both.2 zero)]
      exact if_pos zero
    · rw [if_pos ⟨taken, zero⟩]
      exact if_neg zero
  · rw [if_neg taken, if_neg (fun both => taken both.1)]

theorem reported_of_venue (keys : List Pubkey) (state : Tracked) (ix : CompiledInstruction)
    (venue : Venue) (member : venue ∈ Venue.simulated)
    (named : keys[ix.programIdIndex.toNat]? = some venue.program) :
    reported keys state ix =
      ((venue.swapPool keys ix).filter (fun pool => (state.cache.get pool).isSome)).map
        (fun pool => (pool, venue.amountIn ix.data, venue.aToB ix.data)) := by
  have kind : venue.dex = .raydiumAmmV4 ∨ venue.dex = .pumpSwap :=
    (simulated_dex venue.dex).mpr ⟨venue, member, rfl⟩
  rw [reported, decodeSwap_of_venue keys ix venue (simulated_active venue member) named,
    venue.decoder_eq]
  cases venue.swapPool keys ix with
  | none => rfl
  | some pool =>
      by_cases cached : (state.cache.get pool).isSome = true
      · simp [kind, cached]
      · have absent : state.cache.get pool = none := by simpa using cached
        simp [absent]

theorem foreign_of_unnamed (now : Instant) (keys : List Pubkey) (state : Tracked)
    (ix : CompiledInstruction)
    (unnamed : ∀ venue ∈ Venue.simulated, keys[ix.programIdIndex.toNat]? ≠ some venue.program) :
    deltaOf now keys state ix = none ∧ reported keys state ix = none := by
  constructor
  · rw [deltaOf]
    cases named : keys[ix.programIdIndex.toNat]? with
    | none => rfl
    | some pid =>
        have raydium := unnamed Venue.raydium (by simp [Venue.simulated])
        have pumpSwap := unnamed Venue.pumpSwap (by simp [Venue.simulated])
        rw [named] at raydium pumpSwap
        have unseen : amountSeen pid ix.data = none := by
          rw [amountSeen, if_neg (show pid ≠ DexPrograms.raydiumAmmV4 from
            fun same => raydium (congrArg some same)),
            if_neg (fun both => pumpSwap (congrArg some both.1))]
        rw [Option.bind_some, unseen]
  · rw [reported, Option.bind_eq_none_iff]
    intro swap found
    rw [if_neg]
    intro both
    rcases (simulated_dex swap.dex).mp both.1 with ⟨venue, member, same⟩
    exact unnamed venue member (venue_of_decodeSwap keys ix swap found venue
      (simulated_active venue member) same)

theorem swapSeenAlike_iff (now : Instant) (keys : List Pubkey) (state : Tracked)
    (ix : CompiledInstruction) (venue : Venue) (member : venue ∈ Venue.simulated)
    (named : keys[ix.programIdIndex.toNat]? = some venue.program) :
    deltaOf now keys state ix = reported keys state ix ↔
      SwapSeenAlike now keys state ix venue := by
  rw [SwapSeenAlike, deltaOf_of_venue now keys state ix venue member named,
    reported_of_venue keys state ix venue member named]
  cases (venue.swapPool keys ix).filter (fun pool => (state.cache.get pool).isSome) with
  | none =>
      rw [Option.map_none]
      dsimp only
      by_cases taken : venue.Taken ix.data
      · by_cases zero : venue.amountIn ix.data = 0
        · simp [zero]
        · simp [taken, zero]
      · simp [taken]
  | some pool =>
      rw [Option.map_some]
      dsimp only
      by_cases counts : venue.Taken ix.data ∧ venue.amountIn ix.data ≠ 0
      · rw [if_pos counts]
        cases reached now keys state ix.accounts with
        | none => simp
        | some found =>
            rcases found with ⟨vault, other, side⟩
            simp [counts.1, counts.2]
      · rw [if_neg counts]
        constructor
        · nofun
        · intro all
          exact absurd ⟨all.1, all.2.1⟩ counts

theorem deltas_agree_iff (now : Instant) (keys : List Pubkey) (state : Tracked)
    (ix : CompiledInstruction) :
    deltaOf now keys state ix = reported keys state ix ↔
      ∀ venue ∈ Venue.simulated, keys[ix.programIdIndex.toNat]? = some venue.program →
        SwapSeenAlike now keys state ix venue := by
  constructor
  · intro agree venue member named
    exact (swapSeenAlike_iff now keys state ix venue member named).mp agree
  · intro alike
    by_cases foreign : ∀ venue ∈ Venue.simulated,
        keys[ix.programIdIndex.toNat]? ≠ some venue.program
    · rcases foreign_of_unnamed now keys state ix foreign with ⟨noDelta, noReport⟩
      rw [noDelta, noReport]
    · simp only [not_forall, not_not] at foreign
      rcases foreign with ⟨venue, member, named⟩
      exact (swapSeenAlike_iff now keys state ix venue member named).mpr (alike venue member named)

theorem identifyDex_isSome_iff (prog : Pubkey) :
    (ShredDeltaTracker.identifyDex prog).isSome = true ↔
      ∃ venue ∈ Venue.active, prog = venue.program := by
  rw [ShredDeltaTracker.identifyDex]
  simp only [Venue.active, Venue.raydium, Venue.orca, Venue.meteora, Venue.pumpSwap, List.mem_cons,
    List.not_mem_nil, or_false, exists_eq_or_imp, exists_eq_left]
  generalize DexPrograms.raydiumAmmV4 = raydium
  generalize DexPrograms.orcaWhirlpool = orca
  generalize DexPrograms.meteoraDlmm = meteora
  generalize DexPrograms.pumpswap = pumpSwap
  by_cases first : prog = raydium
  · simp [first]
  by_cases second : prog = orca
  · rw [if_neg first, if_pos second]
    simp [second]
  by_cases third : prog = meteora
  · rw [if_neg first, if_neg second, if_pos third]
    simp [third]
  · simp [first, second, third]

theorem counted_of_venue (keys : List Pubkey) (ix : CompiledInstruction) (venue : Venue)
    (member : venue ∈ Venue.active)
    (named : keys[ix.programIdIndex.toNat]? = some venue.program) :
    counted keys ix = accountAt 0 ix.accounts keys := by
  rcases Option.isSome_iff_exists.mp ((identifyDex_isSome_iff venue.program).mpr
    ⟨venue, member, rfl⟩) with ⟨dex, known⟩
  rw [counted, named, Option.bind_some, known]

theorem reportedPool_of_venue (keys : List Pubkey) (ix : CompiledInstruction) (venue : Venue)
    (member : venue ∈ Venue.active)
    (named : keys[ix.programIdIndex.toNat]? = some venue.program) :
    reportedPool keys ix = venue.swapPool keys ix := by
  have kind := (active_dex venue.dex).mpr ⟨venue, member, rfl⟩
  rw [reportedPool, decodeSwap_of_venue keys ix venue member named, venue.decoder_eq]
  cases venue.swapPool keys ix with
  | none => rfl
  | some pool => exact if_pos kind

theorem pools_agree_iff (keys : List Pubkey) (ix : CompiledInstruction) :
    counted keys ix = reportedPool keys ix ↔
      ∀ venue ∈ Venue.active, keys[ix.programIdIndex.toNat]? = some venue.program →
        PoolSeenAlike keys ix venue := by
  constructor
  · intro agree venue member named
    rw [PoolSeenAlike, ← counted_of_venue keys ix venue member named,
      ← reportedPool_of_venue keys ix venue member named]
    exact agree
  · intro alike
    by_cases foreign : ∀ venue ∈ Venue.active,
        keys[ix.programIdIndex.toNat]? ≠ some venue.program
    · have noPool : reportedPool keys ix = none := by
        rw [reportedPool, Option.bind_eq_none_iff]
        intro swap found
        rw [if_neg]
        intro listed
        rcases (active_dex swap.dex).mp listed with ⟨venue, member, same⟩
        exact foreign venue member (venue_of_decodeSwap keys ix swap found venue member same)
      rw [noPool, counted]
      cases named : keys[ix.programIdIndex.toNat]? with
      | none => rfl
      | some prog =>
          have unknown : ShredDeltaTracker.identifyDex prog = none := by
            by_contra known
            rcases (identifyDex_isSome_iff prog).mp (Option.isSome_iff_ne_none.mpr known) with
              ⟨venue, member, same⟩
            exact foreign venue member (by rw [named, same])
          rw [Option.bind_some, unknown]
    · simp only [not_forall, not_not] at foreign
      rcases foreign with ⟨venue, member, named⟩
      rw [counted_of_venue keys ix venue member named,
        reportedPool_of_venue keys ix venue member named]
      exact alike venue member named

/-- The observers agree on a transaction exactly if they see its instructions alike. -/
theorem observers_agree_iff (now : Instant) (state : Tracked) (tx : TxMessage) :
    ObserversAgree now state tx ↔ SeenAlike now state tx := by
  simp only [ObserversAgree, deltas_agree_iff, pools_agree_iff]
  constructor
  · intro agree
    exact ⟨agree.1, agree.2⟩
  · intro alike
    exact ⟨alike.swaps, alike.pools⟩

/-- A deposit of 1000 into a cached pool with its first vault among the accounts. -/
def depositTx : TxMessage :=
  ⟨[.ofNat 1, .ofNat 2, DexPrograms.pumpswap],
    [⟨2, [0, 1], pumpSwapDepositDisc ++ leBytes 8 1000⟩]⟩

def depositState : Tracked :=
  ⟨.new ((HashMap.empty : HashMap Pubkey (Pubkey × Bool)).insert (.ofNat 2) (.ofNat 1, true)),
    PoolStateCache.new.upsert
      { PairIndex.graduatedPool wsol usdc with poolAddress := .ofNat 1 }⟩

/-- The tracker takes the deposit for a swap, and counts it as one. -/
theorem deposit_taken_for_swap : ¬ ObserversAgree 0 depositState depositTx := by
  intro agree
  have none : decodeSwap depositTx.accountKeys ⟨2, [0, 1], pumpSwapDepositDisc ++ leBytes 8 1000⟩ =
      none := by
    decide +kernel
  have simulated : deltaOf 0 depositTx.accountKeys (scanned depositState)
      ⟨2, [0, 1], pumpSwapDepositDisc ++ leBytes 8 1000⟩ = some (.ofNat 1, 1000, true) := by
    decide +kernel
  have same := agree.1 (scanned depositState, ⟨2, [0, 1], pumpSwapDepositDisc ++ leBytes 8 1000⟩)
    List.mem_cons_self
  rw [simulated, reported, none] at same
  cases same

end Helios.SwapObservers
