import Helios.Executability
import Helios.RouteExecution

/-! The decoder of swap instructions seen in transactions, and what it makes of the
executor's own swaps. Accounts that a lookup table brings in are not among the
message's keys, and the decoder does not see them. -/

namespace Helios

open CrossDex Fallible Machine

namespace SwapDecoder

inductive SwapDex where
  | raydiumAmmV4
  | raydiumClmm
  | orcaWhirlpool
  | meteoraDlmm
  | meteoraDynamicAmm
  | pumpSwap
  | pumpFun
  | jupiter
  | fluxbeam
  | saber
  | raydiumCpmm
  deriving DecidableEq

structure DetectedSwap where
  dex : SwapDex
  pool : Pubkey
  amountIn : Nat
  amountOutMin : Nat
  aToB : Bool
  deriving DecidableEq

structure CompiledInstruction where
  programIdIndex : UInt8
  accounts : List UInt8
  data : List UInt8

structure TxMessage where
  accountKeys : List Pubkey
  instructions : List CompiledInstruction

def pumpFunProgram : Pubkey := .parse "6EF8rrecthR5Dkzon8Nwu78hRvfCKubJ14M5uBEwF6P"
def jupiterProgram : Pubkey := .parse "JUP6LkbZbjS1jKKwapdHNy74zcZ3tLUZoi5QNyVTaV4"
def meteoraDynamicProgram : Pubkey := .parse "Eo7WjKq67rjJQSZxS6z3YkapzY3eMj6Xy8X5EQVn5UaB"

def orcaSwapDisc : List UInt8 := [248, 198, 158, 145, 225, 117, 135, 200]
def meteoraSwapDisc : List UInt8 := [248, 198, 244, 145, 90, 24, 30, 227]
def pumpSwapBuyDisc : List UInt8 := [102, 6, 61, 18, 1, 218, 235, 234]
def pumpSwapSellDisc : List UInt8 := [51, 230, 133, 164, 1, 127, 131, 173]
def pumpFunBuyDisc : List UInt8 := [102, 6, 61, 18, 5, 205, 228, 178]
def pumpFunSellDisc : List UInt8 := [51, 230, 133, 164, 1, 127, 131, 173]
def raydiumCpmmSwapBaseInputDisc : List UInt8 := [143, 190, 90, 218, 196, 30, 51, 222]
def raydiumCpmmSwapBaseOutputDisc : List UInt8 := [55, 217, 98, 86, 163, 74, 180, 173]
def raydiumClmmSwapDisc : List UInt8 := [43, 4, 237, 11, 26, 201, 106, 217]
def raydiumClmmSwapV2Disc : List UInt8 := [43, 4, 237, 11, 26, 201, 30, 98]
def jupiterRouteDisc : List UInt8 := [229, 23, 203, 151, 122, 227, 173, 42]
def jupiterRoute2Disc : List UInt8 := [193, 32, 155, 51, 65, 214, 156, 129]

/-- An instruction's data, its account indices, and the message's keys. -/
abbrev Decoder := List UInt8 → List UInt8 → List Pubkey → Option DetectedSwap

def u64At (place : Nat) (data : List UInt8) : Nat := ofLeBytes ((data.drop place).take 8)

def accountAt (place : Nat) (accs : List UInt8) (accounts : List Pubkey) : Option Pubkey :=
  accs[place]?.bind (fun index => accounts[index.toNat]?)

/-- The form nearly all decoders have: a tag, the amount behind it, the minimum
behind that if the data reach so far, and the pool at a fixed place. -/
def decodeTagged (dex : SwapDex) (tags : List (List UInt8)) (tagLength least poolPlace : Nat)
    (aToB : List UInt8 → Bool) : Decoder := fun data accs accounts =>
  if data.length < least then none
  else if data.take tagLength ∉ tags then none
  else
    (accountAt poolPlace accs accounts).map (fun pool => {
      dex, pool
      amountIn := u64At tagLength data
      amountOutMin := if tagLength + 16 ≤ data.length then u64At (tagLength + 8) data else 0
      aToB := aToB data })

/-- The byte at a place, taken as set when it is missing. -/
def flagAt (place : Nat) (data : List UInt8) : Bool := decide (data.getD place 1 ≠ 0)

def always (_ : List UInt8) : Bool := true

def decodeRaydiumV4 : Decoder := decodeTagged .raydiumAmmV4 [[9]] 1 17 1 always

def decodeRaydiumClmm : Decoder :=
  decodeTagged .raydiumClmm [raydiumClmmSwapDisc, raydiumClmmSwapV2Disc] 8 16 2 (flagAt 24)

def decodeOrca : Decoder := decodeTagged .orcaWhirlpool [orcaSwapDisc] 8 42 2 (flagAt 41)

def decodeMeteora : Decoder := decodeTagged .meteoraDlmm [meteoraSwapDisc] 8 24 0 always

/-- A purchase counts as A to B, a sale as B to A. -/
def decodePumpSwap : Decoder :=
  decodeTagged .pumpSwap [pumpSwapBuyDisc, pumpSwapSellDisc] 8 16 0
    (fun data => decide (data.take 8 = pumpSwapBuyDisc))

def decodeFluxbeam : Decoder := decodeTagged .fluxbeam [[1]] 1 17 1 always

def decodeSaber : Decoder := decodeTagged .saber [[1]] 1 17 1 always

def decodeRaydiumCpmm : Decoder :=
  decodeTagged .raydiumCpmm [raydiumCpmmSwapBaseInputDisc, raydiumCpmmSwapBaseOutputDisc] 8 24 2
    always

def decodePumpFun : Decoder :=
  decodeTagged .pumpFun [pumpFunBuyDisc, pumpFunSellDisc] 8 16 2
    (fun data => decide (data.take 8 = pumpFunBuyDisc))

/-- No amounts are read: the pools are in the inner calls. -/
def decodeJupiter : Decoder := fun data accs accounts =>
  if data.length < 8 then none
  else if data.take 8 ∉ [jupiterRouteDisc, jupiterRoute2Disc] then none
  else (accountAt 0 accs accounts).map (fun pool => ⟨.jupiter, pool, 0, 0, true⟩)

def decodeMeteoraDynamic : Decoder :=
  decodeTagged .meteoraDynamicAmm [meteoraSwapDisc] 8 24 0 always

def decoderFor (prog : Pubkey) : Option Decoder :=
  if prog = DexPrograms.raydiumAmmV4 then some decodeRaydiumV4
  else if prog = DexPrograms.raydiumClmm then some decodeRaydiumClmm
  else if prog = DexPrograms.orcaWhirlpool then some decodeOrca
  else if prog = DexPrograms.meteoraDlmm then some decodeMeteora
  else if prog = DexPrograms.pumpswap then some decodePumpSwap
  else if prog = DexPrograms.fluxbeam then some decodeFluxbeam
  else if prog = DexPrograms.saber then some decodeSaber
  else if prog = DexPrograms.raydiumCpmm then some decodeRaydiumCpmm
  else if prog = pumpFunProgram then some decodePumpFun
  else if prog = jupiterProgram then some decodeJupiter
  else if prog = meteoraDynamicProgram then some decodeMeteoraDynamic
  else none

def decodeSwap (accounts : List Pubkey) (ix : CompiledInstruction) : Option DetectedSwap := do
  let prog ← accounts[ix.programIdIndex.toNat]?
  let decoder ← decoderFor prog
  decoder ix.data ix.accounts accounts

/-- `decode_swaps`: the swaps of a transaction in their order. -/
def decodeSwaps (tx : TxMessage) : List DetectedSwap :=
  tx.instructions.filterMap (decodeSwap tx.accountKeys)

/-- The tokens `enrich_swaps` reads off a swap, given those of its pool. -/
def swapTokens (swap : DetectedSwap) (tokenA tokenB : Pubkey) : Pubkey × Pubkey :=
  if swap.aToB then (tokenA, tokenB) else (tokenB, tokenA)

theorem decodeSwaps_append (accounts : List Pubkey) (before after : List CompiledInstruction)
    (ix : CompiledInstruction) :
    decodeSwaps ⟨accounts, before ++ [ix] ++ after⟩ =
      decodeSwaps ⟨accounts, before⟩ ++ (decodeSwap accounts ix).toList ++
        decodeSwaps ⟨accounts, after⟩ := by
  rw [decodeSwaps, List.filterMap_append, List.filterMap_append]
  cases found : decodeSwap accounts ix with
  | none => rw [List.filterMap_cons_none found]; rfl
  | some swap => rw [List.filterMap_cons_some found]; rfl

/-- The decoder a program of the executor's swaps is read with. -/
theorem decoderFor_dexProgramFor (dex : DexType) :
    decoderFor (dexProgramFor dex) = match dex with
      | .raydiumAmmV4 => some decodeRaydiumV4
      | .raydiumClmm => some decodeRaydiumClmm
      | .orcaWhirlpool => some decodeOrca
      | .meteoraDlmm => some decodeMeteora
      | .pumpSwap => some decodePumpSwap
      | .fluxbeam => some decodeFluxbeam
      | .saber => some decodeSaber
      | .raydiumCpmm => some decodeRaydiumCpmm
      | .unknown => decoderFor (dexProgramFor .unknown) := by
  have chain : decoderFor (dexProgramFor dex) =
      if dexProgramFor dex = dexProgramFor .raydiumAmmV4 then some decodeRaydiumV4
      else if dexProgramFor dex = dexProgramFor .raydiumClmm then some decodeRaydiumClmm
      else if dexProgramFor dex = dexProgramFor .orcaWhirlpool then some decodeOrca
      else if dexProgramFor dex = dexProgramFor .meteoraDlmm then some decodeMeteora
      else if dexProgramFor dex = dexProgramFor .pumpSwap then some decodePumpSwap
      else if dexProgramFor dex = dexProgramFor .fluxbeam then some decodeFluxbeam
      else if dexProgramFor dex = dexProgramFor .saber then some decodeSaber
      else if dexProgramFor dex = dexProgramFor .raydiumCpmm then some decodeRaydiumCpmm
      else if dexProgramFor dex = pumpFunProgram then some decodePumpFun
      else if dexProgramFor dex = jupiterProgram then some decodeJupiter
      else if dexProgramFor dex = meteoraDynamicProgram then some decodeMeteoraDynamic
      else none := rfl
  cases dex with
  | unknown => rfl
  | raydiumAmmV4 => rw [chain, if_pos rfl]
  | raydiumClmm => rw [chain]; simp only [dexProgramFor_inj]; rfl
  | orcaWhirlpool => rw [chain]; simp only [dexProgramFor_inj]; rfl
  | meteoraDlmm => rw [chain]; simp only [dexProgramFor_inj]; rfl
  | pumpSwap => rw [chain]; simp only [dexProgramFor_inj]; rfl
  | fluxbeam => rw [chain]; simp only [dexProgramFor_inj]; rfl
  | saber => rw [chain]; simp only [dexProgramFor_inj]; rfl
  | raydiumCpmm => rw [chain]; simp only [dexProgramFor_inj]; rfl

theorem decodeTagged_some (dex : SwapDex) (tags : List (List UInt8))
    (tagLength least poolPlace : Nat) (aToB : List UInt8 → Bool) (data accs : List UInt8)
    (accounts : List Pubkey) (swap : DetectedSwap)
    (found : decodeTagged dex tags tagLength least poolPlace aToB data accs accounts = some swap) :
    least ≤ data.length ∧ data.take tagLength ∈ tags ∧ swap.amountIn = u64At tagLength data := by
  rw [decodeTagged] at found
  split at found
  · cases found
  · next long =>
      split at found
      · cases found
      · next known =>
          rcases Option.map_eq_some_iff.mp found with ⟨pool, -, same⟩
          rw [← same]
          exact ⟨not_lt.mp long, not_not.mp known, rfl⟩

theorem decoderFor_raydium : decoderFor DexPrograms.raydiumAmmV4 = some decodeRaydiumV4 :=
  decoderFor_dexProgramFor .raydiumAmmV4

theorem decoderFor_pumpswap : decoderFor DexPrograms.pumpswap = some decodePumpSwap :=
  decoderFor_dexProgramFor .pumpSwap

theorem program_ne (first second : DexType) (different : first ≠ second) :
    dexProgramFor first ≠ dexProgramFor second :=
  fun same => different ((dexProgramFor_inj first second).mp same)

theorem pumpswap_ne_raydium : DexPrograms.pumpswap ≠ DexPrograms.raydiumAmmV4 :=
  program_ne .pumpSwap .raydiumAmmV4 (by decide)

theorem decodeSwap_of_program (keys : List Pubkey) (ix : CompiledInstruction) (prog : Pubkey)
    (named : keys[ix.programIdIndex.toNat]? = some prog) :
    decodeSwap keys ix = (decoderFor prog).bind (fun decoder => decoder ix.data ix.accounts keys) := by
  rw [decodeSwap, named]
  rfl

/-- Data that begin with the decoder's tag and hold both amounts. -/
theorem decodeTagged_of_data (dex : SwapDex) (tags : List (List UInt8)) (tag rest : List UInt8)
    (least poolPlace amountIn minOut : Nat) (aToB : List UInt8 → Bool) (accs : List UInt8)
    (accounts : List Pubkey) (pool : Pubkey) (known : tag ∈ tags)
    (long : least ≤ tag.length + 16 + rest.length) (small : amountIn < 2 ^ 64)
    (smallOut : minOut < 2 ^ 64) (found : accountAt poolPlace accs accounts = some pool) :
    decodeTagged dex tags tag.length least poolPlace aToB
      (tag ++ (leBytes 8 amountIn ++ (leBytes 8 minOut ++ rest))) accs accounts =
        some ⟨dex, pool, amountIn, minOut,
          aToB (tag ++ (leBytes 8 amountIn ++ (leBytes 8 minOut ++ rest)))⟩ := by
  have length : (tag ++ (leBytes 8 amountIn ++ (leBytes 8 minOut ++ rest))).length =
      tag.length + 16 + rest.length := by
    simp only [List.length_append, leBytes_length]
    omega
  have start : (tag ++ (leBytes 8 amountIn ++ (leBytes 8 minOut ++ rest))).take tag.length = tag :=
    List.take_left' rfl
  have first : u64At tag.length (tag ++ (leBytes 8 amountIn ++ (leBytes 8 minOut ++ rest))) =
      amountIn := ofLeBytes_at tag _ amountIn small
  have second : u64At (tag.length + 8) (tag ++ (leBytes 8 amountIn ++ (leBytes 8 minOut ++ rest))) =
      minOut := by
    have shifted := ofLeBytes_at (tag ++ leBytes 8 amountIn) rest minOut smallOut
    rw [List.length_append, leBytes_length, List.append_assoc] at shifted
    exact shifted
  rw [decodeTagged, length, if_neg (not_lt.mpr long), start, if_neg (not_not_intro known), found,
    first, second, if_pos (Nat.le_add_right _ _)]
  rfl

theorem decodePumpSwap_of_tag (tag : List UInt8) (known : tag ∈ [pumpSwapBuyDisc, pumpSwapSellDisc])
    (amountIn minOut : Nat) (accs : List UInt8) (accounts : List Pubkey) (pool : Pubkey)
    (small : amountIn < 2 ^ 64) (smallOut : minOut < 2 ^ 64)
    (found : accountAt 0 accs accounts = some pool) :
    decodePumpSwap (tag ++ (leBytes 8 amountIn ++ leBytes 8 minOut)) accs accounts =
      some ⟨.pumpSwap, pool, amountIn, minOut, decide (tag = pumpSwapBuyDisc)⟩ := by
  have length : tag.length = 8 := by
    rcases List.mem_pair.mp known with same | same
    · rw [same]; rfl
    · rw [same]; rfl
  have read := decodeTagged_of_data .pumpSwap [pumpSwapBuyDisc, pumpSwapSellDisc] tag [] 16 0
    amountIn minOut (fun data => decide (data.take 8 = pumpSwapBuyDisc)) accs accounts pool known
    (by omega) small smallOut found
  rw [List.append_nil, length, List.take_left' length] at read
  exact read

/-! The executor's own swaps, decoded. -/

/-- The message lists the program and the accounts of an instruction among its keys,
at the places the compiled instruction names. -/
structure Compiled (accounts : List Pubkey) (compiled : CompiledInstruction)
    (ix : Instruction) : Prop where
  program : accounts[compiled.programIdIndex.toNat]? = some ix.programId
  accounts : compiled.accounts.map (fun index => accounts[index.toNat]?) =
    ix.accounts.map (fun wanted => some wanted.pubkey)
  data : compiled.data = ix.data

/-- The swap of a built hop: its first account is the program. -/
def swapInstruction (accounts : List AccountMeta) (data : List UInt8) : Instruction :=
  ⟨(accounts.head?.map AccountMeta.pubkey).getD default, accounts.tail, data⟩

theorem accountAt_of_compiled (accounts : List Pubkey) (compiled : CompiledInstruction)
    (ix : Instruction) (listed : Compiled accounts compiled ix) (place : Nat) :
    accountAt place compiled.accounts accounts = ix.accounts[place]?.map AccountMeta.pubkey := by
  have here := congrArg (fun keys : List (Option Pubkey) => keys[place]?.join) listed.accounts
  simp only [List.getElem?_map] at here
  calc accountAt place compiled.accounts accounts
      = (compiled.accounts[place]?.map (fun index => accounts[index.toNat]?)).join := by
        rw [accountAt]
        cases compiled.accounts[place]? with
        | none => rfl
        | some index => rfl
    _ = (ix.accounts[place]?.map (fun wanted => some wanted.pubkey)).join := here
    _ = ix.accounts[place]?.map AccountMeta.pubkey := by
        cases ix.accounts[place]? with
        | none => rfl
        | some wanted => rfl

section Builder

variable {F : Type} [FloatArith F] (powf : F → F → F) (builder : TxBuilder)

open RouteExecution TxBuilder

/-- Where a hop's pool stands behind its program. -/
def poolPlace : DexType → Nat
  | .raydiumAmmV4 => 1
  | .orcaWhirlpool => 4
  | _ => 0

theorem swapInstruction_of_hopAccounts (dex : DexType) (ctx : HopContext F)
    (program : ctx.hop.dexProgram = dexProgramFor dex) (accounts : List AccountMeta)
    (listed : builder.hopAccounts powf dex ctx = .ok accounts) (data : List UInt8) :
    (swapInstruction accounts data).programId = dexProgramFor dex ∧
      (swapInstruction accounts data).accounts[poolPlace dex]?.map AccountMeta.pubkey =
        some ctx.hop.pool := by
  unfold hopAccounts at listed
  cases dex with
  | raydiumAmmV4 =>
      simp only [raydiumAccounts] at listed
      split at listed
      · cases listed
      · split at listed
        · cases listed
          exact ⟨program, rfl⟩
        · cases listed
  | orcaWhirlpool =>
      simp only [orcaAccounts] at listed
      split at listed
      · cases listed
      · split at listed
        · cases listed
        · simp only [bind_eq_ok_iff] at listed
          rcases listed with ⟨_, _, _, _, _, _, _, _, _, _, same⟩
          cases same
          exact ⟨program, rfl⟩
  | meteoraDlmm =>
      simp only [meteoraAccounts] at listed
      split at listed
      · cases listed
      · simp only [bind_eq_ok_iff] at listed
        rcases listed with ⟨_, _, _, _, same⟩
        cases same
        exact ⟨program, rfl⟩
  | pumpSwap =>
      simp only [pumpSwapAccounts, bind_eq_ok_iff] at listed
      rcases listed with ⟨_, _, _, _, _, _, _, _, _, _, _, _, _, _, _, _, same⟩
      cases same
      exact ⟨rfl, rfl⟩
  | raydiumClmm => cases listed
  | fluxbeam => cases listed
  | saber => cases listed
  | raydiumCpmm => cases listed
  | unknown => cases listed

/-- What the decoder reports of a swap the executor built. A sale counts as B to A,
and an Orca swap goes by another tag. -/
theorem decodeSwap_of_built (dex : DexType) (ctx : HopContext F)
    (program : ctx.hop.dexProgram = dexProgramFor dex) (accounts : List AccountMeta)
    (listed : builder.hopAccounts powf dex ctx = .ok accounts) (amountIn minOut : Nat) (aToB : Bool)
    (arrays : Nat) (data : List UInt8)
    (written : buildSwapData dex amountIn minOut aToB arrays = .ok data)
    (small : amountIn < 2 ^ 64) (smallOut : minOut < 2 ^ 64) (keys : List Pubkey)
    (compiled : CompiledInstruction)
    (places : Compiled keys compiled (swapInstruction accounts data)) :
    decodeSwap keys compiled = match dex with
      | .raydiumAmmV4 => some ⟨.raydiumAmmV4, ctx.hop.pool, amountIn, minOut, true⟩
      | .meteoraDlmm => some ⟨.meteoraDlmm, ctx.hop.pool, amountIn, minOut, true⟩
      | .pumpSwap => some ⟨.pumpSwap, ctx.hop.pool, amountIn, minOut, !aToB⟩
      | _ => none := by
  have built := swapInstruction_of_hopAccounts powf builder dex ctx program accounts listed data
  have pool := (accountAt_of_compiled keys compiled _ places (poolPlace dex)).trans built.2
  have sent : keys[compiled.programIdIndex.toNat]? = some (dexProgramFor dex) :=
    places.program.trans (congrArg some built.1)
  have same : compiled.data = data := places.data
  rw [decodeSwap, sent, same]
  change (decoderFor (dexProgramFor dex)).bind (fun decoder =>
    decoder data compiled.accounts keys) = _
  rw [decoderFor_dexProgramFor]
  cases dex with
  | raydiumAmmV4 =>
      cases written
      have read := decodeTagged_of_data .raydiumAmmV4 [[9]] [9] [] 17 1 amountIn minOut always
        compiled.accounts keys ctx.hop.pool (by decide) (by decide) small smallOut pool
      rw [List.append_nil] at read
      exact read
  | meteoraDlmm =>
      cases written
      have read := decodeTagged_of_data .meteoraDlmm [meteoraSwapDisc] meteoraSwapDisc [] 24 0
        amountIn minOut always compiled.accounts keys ctx.hop.pool (by decide) (by decide) small
        smallOut pool
      rw [List.append_nil] at read
      exact read
  | pumpSwap =>
      cases written
      cases aToB with
      | true =>
          exact decodePumpSwap_of_tag pumpSwapSellDisc (by decide) amountIn minOut compiled.accounts
            keys ctx.hop.pool small smallOut pool
      | false =>
          exact decodePumpSwap_of_tag pumpSwapBuyDisc (by decide) amountIn minOut compiled.accounts
            keys ctx.hop.pool small smallOut pool
  | orcaWhirlpool =>
      cases written
      have tag : (orcaSwapV2Data amountIn minOut aToB arrays).take 8 =
          [43, 4, 237, 11, 26, 201, 30, 98] := by
        simp only [orcaSwapV2Data, List.append_assoc]
        exact List.take_left' rfl
      have foreign : (orcaSwapV2Data amountIn minOut aToB arrays).take 8 ∉ [orcaSwapDisc] := by
        rw [tag]
        decide
      simp only [Option.bind_some, decodeOrca, decodeTagged]
      rw [if_pos foreign, ite_self]
  | raydiumClmm => cases written
  | fluxbeam => cases written
  | saber => cases written
  | raydiumCpmm => cases written
  | unknown => cases written

/-- The decoder's report of an instruction is the hop: its pool, both amounts, and
its tokens in their order. -/
def ReadsBack (keys : List Pubkey) (compiled : CompiledInstruction) (hop : Hop F)
    (pool : DexPool) (amountIn minOut : Nat) : Prop :=
  ∃ swap, decodeSwap keys compiled = some swap ∧ swap.pool = hop.pool ∧
    swap.amountIn = amountIn ∧ swap.amountOutMin = minOut ∧
    swapTokens swap pool.tokenA pool.tokenB = (hop.tokenIn, hop.tokenOut)

/-- The decoder reports a hop the executor built as it is exactly for Raydium and
Meteora hops that spend the pool's first token. -/
theorem swap_reads_back_iff (cache : PoolStateCache) (tokenPrograms : HashMap Pubkey Pubkey)
    (hopIdx amountIn : Nat) (hop : Hop F) (pool : DexPool) (cached : cache.get hop.pool = some pool)
    (hopBuilt : BuiltHop)
    (done : builder.buildHop powf cache tokenPrograms hopIdx amountIn hop = .ok hopBuilt)
    (minOut : Nat) (data : List UInt8)
    (written : buildSwapData (DexType.fromProgramId hop.dexProgram) amountIn minOut
      (decide (hop.tokenIn = pool.tokenA))
      (orcaSupplementalTickArrays (DexType.fromProgramId hop.dexProgram)) = .ok data)
    (small : amountIn < 2 ^ 64) (smallOut : minOut < 2 ^ 64) (keys : List Pubkey)
    (compiled : CompiledInstruction)
    (places : Compiled keys compiled (swapInstruction hopBuilt.accounts data)) :
    ReadsBack keys compiled hop pool amountIn minOut ↔
      (DexType.fromProgramId hop.dexProgram = .raydiumAmmV4 ∨
        DexType.fromProgramId hop.dexProgram = .meteoraDlmm) ∧ hop.tokenIn = pool.tokenA := by
  have spec := hopBuilt_of_ok powf builder cache tokenPrograms hopIdx amountIn hop pool hopBuilt
    cached done
  rcases checkTokens_spec hopIdx hop pool spec.tokens with ⟨different, inside, outside⟩
  rcases spec.accounts with ⟨ctx, sameHop, samePool, -, -, listed⟩
  have known : DexType.fromProgramId hop.dexProgram ≠ .unknown := by
    intro unknown
    rw [unknown] at listed
    cases listed
  have program := program_of_fromProgramId hop.dexProgram known
  have decoded := decodeSwap_of_built powf builder _ ctx (sameHop ▸ program) hopBuilt.accounts
    listed amountIn minOut _ _ data written small smallOut keys compiled places
  have forward : (pool.tokenA, pool.tokenB) = (hop.tokenIn, hop.tokenOut) ↔
      hop.tokenIn = pool.tokenA := by
    rw [Prod.mk.injEq]
    constructor
    · exact fun both => both.1.symm
    · intro first
      refine ⟨first.symm, ?_⟩
      rcases outside with same | same
      · exact absurd (first.trans same.symm) different
      · exact same.symm
  have never : (if !decide (hop.tokenIn = pool.tokenA) then (pool.tokenA, pool.tokenB)
      else (pool.tokenB, pool.tokenA)) ≠ (hop.tokenIn, hop.tokenOut) := by
    intro same
    by_cases first : hop.tokenIn = pool.tokenA
    · rw [decide_eq_true first] at same
      have swapped := congrArg Prod.snd same
      exact different (first.trans swapped)
    · rw [decide_eq_false first] at same
      exact first (congrArg Prod.fst same).symm
  rw [sameHop] at decoded
  rw [ReadsBack, decoded]
  cases dex : DexType.fromProgramId hop.dexProgram with
  | raydiumAmmV4 => simp [swapTokens, forward]
  | meteoraDlmm => simp [swapTokens, forward]
  | pumpSwap =>
      constructor
      · intro ⟨swap, same, _, _, _, tokens⟩
        cases same
        exact absurd tokens never
      · intro ⟨either, _⟩
        rcases either with same | same
        · cases same
        · cases same
  | orcaWhirlpool => simp
  | raydiumClmm => simp
  | fluxbeam => simp
  | saber => simp
  | raydiumCpmm => simp
  | unknown => simp

end Builder

/-! A Raydium pool of WSOL and another token, spent either way. -/

section Sample

open Executability TxBuilder

def tradedPool : DexPool := wsolPool 1 (10 ^ 13) (.ofNat 30)

def tradedCache : PoolStateCache := PoolStateCache.new.upsert tradedPool

def purchase : Hop Double := ⟨.ofNat 1, DexPrograms.raydiumAmmV4, wsol, .ofNat (2 ^ 255), 100, ⟨0⟩⟩

def sale : Hop Double := ⟨.ofNat 1, DexPrograms.raydiumAmmV4, .ofNat (2 ^ 255), wsol, 100, ⟨0⟩⟩

def builtTrade (hop : Hop Double) : BuiltHop :=
  ((constantBuilder.buildHop firstArgument tradedCache HashMap.empty 0 100 hop).toOption).getD
    ⟨[], []⟩

def tradeIx (hop : Hop Double) : Instruction :=
  swapInstruction (builtTrade hop).accounts (builtTrade hop).data

/-- The keys of a message that holds one instruction. -/
def keysOf (ix : Instruction) : List Pubkey :=
  (ix.programId :: ix.accounts.map AccountMeta.pubkey).dedup

def compile (ix : Instruction) : CompiledInstruction where
  programIdIndex := UInt8.ofNat ((keysOf ix).idxOf ix.programId)
  accounts := ix.accounts.map (fun wanted => UInt8.ofNat ((keysOf ix).idxOf wanted.pubkey))
  data := ix.data

theorem compiled_of_short (ix : Instruction) (few : ix.accounts.length < 2 ^ 8) :
    Compiled (keysOf ix) (compile ix) ix := by
  have short : (keysOf ix).length ≤ 2 ^ 8 := by
    have fewer := (List.dedup_sublist (ix.programId :: ix.accounts.map AccountMeta.pubkey)).length_le
    rw [List.length_cons, List.length_map] at fewer
    exact Nat.le_trans fewer few
  have each : ∀ key ∈ keysOf ix,
      (keysOf ix)[(UInt8.ofNat ((keysOf ix).idxOf key)).toNat]? = some key := by
    intro key member
    have place := List.idxOf_lt_length_iff.mpr member
    rw [UInt8.toNat_ofNat', Nat.mod_eq_of_lt (lt_of_lt_of_le place short),
      List.getElem?_eq_getElem place, List.getElem_idxOf]
  refine ⟨each _ (List.mem_dedup.mpr List.mem_cons_self), ?_, rfl⟩
  rw [compile, List.map_map]
  apply List.map_congr_left
  intro wanted member
  exact each _ (List.mem_dedup.mpr (List.mem_cons_of_mem _ (List.mem_map_of_mem member)))

theorem purchase_reads_back_iff :
    ReadsBack (keysOf (tradeIx purchase)) (compile (tradeIx purchase)) purchase tradedPool 100 1 ↔
      (DexType.fromProgramId purchase.dexProgram = .raydiumAmmV4 ∨
        DexType.fromProgramId purchase.dexProgram = .meteoraDlmm) ∧
        purchase.tokenIn = tradedPool.tokenA :=
  swap_reads_back_iff firstArgument constantBuilder tradedCache HashMap.empty 0 100 purchase
    tradedPool (by decide +kernel) (builtTrade purchase) (eq_ok_of_isSome _ _ (by decide +kernel)) 1
    (builtTrade purchase).data (by decide +kernel) (by norm_num) (by norm_num) _ _
    (compiled_of_short _ (by decide +kernel))

/-- A sale is reported as a purchase. -/
theorem sale_not_read_back :
    ¬ ∀ hopBuilt keys compiled,
      constantBuilder.buildHop firstArgument tradedCache HashMap.empty 0 100 sale = .ok hopBuilt →
      Compiled keys compiled (swapInstruction hopBuilt.accounts hopBuilt.data) →
      ReadsBack keys compiled sale tradedPool 100 1 := by
  intro law
  have built : constantBuilder.buildHop firstArgument tradedCache HashMap.empty 0 100 sale =
      .ok (builtTrade sale) := eq_ok_of_isSome _ _ (by decide +kernel)
  rcases law _ _ _ built (compiled_of_short (tradeIx sale) (by decide +kernel)) with
    ⟨swap, reported, _, _, _, tokens⟩
  have decoded : decodeSwap (keysOf (tradeIx sale)) (compile (tradeIx sale)) =
      some ⟨.raydiumAmmV4, .ofNat 1, 100, 1, true⟩ := by
    decide +kernel
  rw [decoded] at reported
  cases reported
  revert tokens
  decide +kernel

end Sample

end SwapDecoder

end Helios
