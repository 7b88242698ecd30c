import Helios.DeltaTracker

/-! What becomes of a transaction read off shreds: the tracker's pass over it, then
the signal processor's. Nothing has checked the indices of its instructions. -/

namespace Helios

open Machine SwapDecoder Decoded

namespace SwapDecoder.Checked

/-! The swap decoders again, with each slice written out. -/

/-- As `Decoder`; refused where the source leaves with `None`. -/
abbrev CheckedDecoder := List UInt8 → List UInt8 → List Pubkey → Decoded DetectedSwap

/-- An amount, zero where the data end before it. -/
def amountIfLong (data : List UInt8) (place : Nat) : Decoded Nat :=
  if place + 8 ≤ data.length then Account.sliceU64 data place else pure 0

def decodeTagged (dex : SwapDex) (tags : List (List UInt8)) (tagLength least poolPlace : Nat)
    (aToB : List UInt8 → Bool) : CheckedDecoder := fun data accs accounts =>
  if data.length < least then refused
  else do
    let disc ← Account.slice data 0 tagLength
    if disc ∉ tags then refused
    else do
      let amountIn ← Account.sliceU64 data tagLength
      let amountOutMin ← amountIfLong data (tagLength + 8)
      let pool ← ofOption (accountAt poolPlace accs accounts)
      pure { dex, pool, amountIn, amountOutMin, aToB := aToB data }

def decodeRaydiumV4 : CheckedDecoder := decodeTagged .raydiumAmmV4 [[9]] 1 17 1 always

def decodeRaydiumClmm : CheckedDecoder :=
  decodeTagged .raydiumClmm [raydiumClmmSwapDisc, raydiumClmmSwapV2Disc] 8 16 2 (flagAt 24)

def decodeOrca : CheckedDecoder := decodeTagged .orcaWhirlpool [orcaSwapDisc] 8 42 2 (flagAt 41)

def decodeMeteora : CheckedDecoder := decodeTagged .meteoraDlmm [meteoraSwapDisc] 8 24 0 always

def decodePumpSwap : CheckedDecoder :=
  decodeTagged .pumpSwap [pumpSwapBuyDisc, pumpSwapSellDisc] 8 16 0
    (fun data => decide (data.take 8 = pumpSwapBuyDisc))

def decodeFluxbeam : CheckedDecoder := decodeTagged .fluxbeam [[1]] 1 17 1 always

def decodeSaber : CheckedDecoder := decodeTagged .saber [[1]] 1 17 1 always

def decodeRaydiumCpmm : CheckedDecoder :=
  decodeTagged .raydiumCpmm [raydiumCpmmSwapBaseInputDisc, raydiumCpmmSwapBaseOutputDisc] 8 24 2
    always

def decodePumpFun : CheckedDecoder :=
  decodeTagged .pumpFun [pumpFunBuyDisc, pumpFunSellDisc] 8 16 2
    (fun data => decide (data.take 8 = pumpFunBuyDisc))

def decodeJupiter : CheckedDecoder := fun data accs accounts =>
  if data.length < 8 then refused
  else do
    let disc ← Account.slice data 0 8
    if disc ∉ [jupiterRouteDisc, jupiterRoute2Disc] then refused
    else do
      let pool ← ofOption (accountAt 0 accs accounts)
      pure ⟨.jupiter, pool, 0, 0, true⟩

def decodeMeteoraDynamic : CheckedDecoder :=
  decodeTagged .meteoraDynamicAmm [meteoraSwapDisc] 8 24 0 always

def decoderFor (prog : Pubkey) : Option CheckedDecoder :=
  if prog = DexPrograms.raydiumAmmV4 then some decodeRaydiumV4
  else if prog = DexPrograms.raydiumClmm then some decodeRaydiumClmm
  else if prog = DexPrograms.orcaWhirlpool then some decodeOrca
  else if prog = DexPrograms.meteoraDlmm then some decodeMeteora
  else if prog = DexPrograms.pumpswap then some decodePumpSwap
  else if prog = DexPrograms.fluxbeam then some decodeFluxbeam
  else if prog = DexPrograms.saber then some decodeSaber
  else if prog = DexPrograms.raydiumCpmm then some decodeRaydiumCpmm
  else if prog = pumpFunProgram then some decodePumpFun
  else if prog = jupiterProgram then some decodeJupiter
  else if prog = meteoraDynamicProgram then some decodeMeteoraDynamic
  else none

def decodeSwap (accounts : List Pubkey) (ix : CompiledInstruction) :
    Decoded (Option DetectedSwap) :=
  match (accounts[ix.programIdIndex.toNat]?).bind decoderFor with
  | none => pure none
  | some decoder => attempt (decoder ix.data ix.accounts accounts)

def decodeSwaps (tx : TxMessage) : Decoded (List DetectedSwap) := do
  let found ← tx.instructions.mapM (decodeSwap tx.accountKeys)
  return found.reduceOption

theorem amountIfLong_eq (data : List UInt8) (place : Nat) :
    amountIfLong data place =
      value (if place + 8 ≤ data.length then u64At place data else 0) := by
  rw [amountIfLong]
  split
  · next reaches => exact Account.sliceU64_of_inside data place reaches
  · rfl

/-- No decoder slices past the length it asks for. -/
theorem decodeTagged_eq (dex : SwapDex) (tags : List (List UInt8))
    (tagLength least poolPlace : Nat) (aToB : List UInt8 → Bool) (long : tagLength + 8 ≤ least)
    (data accs : List UInt8) (accounts : List Pubkey) :
    decodeTagged dex tags tagLength least poolPlace aToB data accs accounts =
      ofOption (SwapDecoder.decodeTagged dex tags tagLength least poolPlace aToB data accs
        accounts) := by
  rw [decodeTagged, SwapDecoder.decodeTagged]
  split
  · rfl
  · next reaches =>
      rw [Account.slice_of_inside data 0 tagLength (by omega), value_bind, List.drop_zero]
      split
      · rfl
      · rw [Account.sliceU64_of_inside data tagLength (by omega), value_bind]
        rw [amountIfLong_eq, value_bind]
        cases accountAt poolPlace accs accounts with
        | none => rfl
        | some pool => rfl

theorem decodeJupiter_eq (data accs : List UInt8) (accounts : List Pubkey) :
    decodeJupiter data accs accounts = ofOption (SwapDecoder.decodeJupiter data accs accounts) := by
  rw [decodeJupiter, SwapDecoder.decodeJupiter]
  split
  · rfl
  · next reaches =>
      rw [Account.slice_of_inside data 0 8 (by omega), value_bind, List.drop_zero]
      split
      · rfl
      · cases accountAt 0 accs accounts with
        | none => rfl
        | some pool => rfl

/-- A decoder and the function it computes. -/
def Computes (checked : CheckedDecoder) (decoder : Decoder) : Prop :=
  ∀ data accs accounts, checked data accs accounts = ofOption (decoder data accs accounts)

theorem computes_tagged (dex : SwapDex) (tags : List (List UInt8))
    (tagLength least poolPlace : Nat) (aToB : List UInt8 → Bool) (long : tagLength + 8 ≤ least) :
    Computes (decodeTagged dex tags tagLength least poolPlace aToB)
      (SwapDecoder.decodeTagged dex tags tagLength least poolPlace aToB) :=
  decodeTagged_eq dex tags tagLength least poolPlace aToB long

theorem rel_ite {A B : Type} {related : A → B → Prop} (test : Prop) [Decidable test] {a : A}
    {b : B} {as : Option A} {bs : Option B} (here : related a b)
    (later : Option.Rel related as bs) :
    Option.Rel related (if test then some a else as) (if test then some b else bs) := by
  split
  · exact .some here
  · exact later

theorem decoderFor_computes (prog : Pubkey) :
    Option.Rel Computes (decoderFor prog) (SwapDecoder.decoderFor prog) := by
  unfold decoderFor SwapDecoder.decoderFor
  apply rel_ite _ (computes_tagged _ _ _ _ _ _ (by decide))
  apply rel_ite _ (computes_tagged _ _ _ _ _ _ (by decide))
  apply rel_ite _ (computes_tagged _ _ _ _ _ _ (by decide))
  apply rel_ite _ (computes_tagged _ _ _ _ _ _ (by decide))
  apply rel_ite _ (computes_tagged _ _ _ _ _ _ (by decide))
  apply rel_ite _ (computes_tagged _ _ _ _ _ _ (by decide))
  apply rel_ite _ (computes_tagged _ _ _ _ _ _ (by decide))
  apply rel_ite _ (computes_tagged _ _ _ _ _ _ (by decide))
  apply rel_ite _ (computes_tagged _ _ _ _ _ _ (by decide))
  apply rel_ite _ decodeJupiter_eq
  apply rel_ite _ (computes_tagged _ _ _ _ _ _ (by decide))
  exact .none

theorem attempt_ofOption {α : Type} (found : Option α) : attempt (ofOption found) = value found := by
  cases found with
  | none => rfl
  | some decoded => rfl

theorem decodeSwap_eq (accounts : List Pubkey) (ix : CompiledInstruction) :
    decodeSwap accounts ix = value (SwapDecoder.decodeSwap accounts ix) := by
  rw [decodeSwap, SwapDecoder.decodeSwap]
  cases accounts[ix.programIdIndex.toNat]? with
  | none => rfl
  | some prog =>
      have related := decoderFor_computes prog
      change (match decoderFor prog with
        | none => pure none
        | some decoder => attempt (decoder ix.data ix.accounts accounts)) =
          value ((SwapDecoder.decoderFor prog).bind (fun decoder =>
            decoder ix.data ix.accounts accounts))
      generalize decoderFor prog = checked at related ⊢
      generalize SwapDecoder.decoderFor prog = plain at related ⊢
      cases related with
      | none => rfl
      | some computes =>
          change attempt _ = _
          rw [computes, attempt_ofOption]
          rfl

/-- The slices of the source never fail, so the decoders are the ones read off it. -/
theorem reduceOption_eq {α : Type} (found : List (Option α)) :
    found.reduceOption = found.filterMap id := rfl

theorem decodeSwaps_eq (tx : TxMessage) : decodeSwaps tx = value (SwapDecoder.decodeSwaps tx) := by
  have each : tx.instructions.mapM (decodeSwap tx.accountKeys) =
      value (tx.instructions.map (SwapDecoder.decodeSwap tx.accountKeys)) := by
    rw [mapM_congr _ (fun ix => value (SwapDecoder.decodeSwap tx.accountKeys ix)) _
      (fun ix _ => decodeSwap_eq tx.accountKeys ix)]
    exact List.mapM_pure
  rw [decodeSwaps, each, value_bind, SwapDecoder.decodeSwaps, reduceOption_eq,
    List.filterMap_map]
  rfl

end SwapDecoder.Checked

namespace SwapDecoder

def raydiumLaunchlab : Pubkey := .parse "LanMV9sAd7wArD4vJFi2qDdfnVhFxYSUg6eADduJ3uj"
def moonshot : Pubkey := .parse "MoonCVVNZFSYkqNXP6bxHLPL6QQJiMagDL3qcqUQTrG"

def pumpSwapCreatePoolDisc : List UInt8 := [233, 146, 209, 142, 207, 104, 64, 188]
def pumpFunMigrateDisc : List UInt8 := [155, 234, 231, 146, 236, 158, 162, 30]
def launchLabMigrateAmmDisc : List UInt8 := [207, 82, 192, 145, 254, 207, 145, 223]
def launchLabMigrateCpswapDisc : List UInt8 := [136, 92, 200, 103, 28, 218, 144, 140]
def moonshotMigrateCamelDisc : List UInt8 := [252, 23, 149, 132, 146, 87, 69, 198]
def moonshotMigrateSnakeDisc : List UInt8 := [42, 229, 10, 231, 189, 62, 193, 174]
def moonitMigrateMeteoraDisc : List UInt8 := [27, 1, 48, 22, 180, 63, 118, 217]
def moonitMigrationDammV2Disc : List UInt8 := [156, 169, 230, 103, 53, 228, 80, 64]
def orcaInitializePoolDisc : List UInt8 := [95, 180, 10, 172, 84, 174, 232, 40]
def meteoraInitializeLbPairDisc : List UInt8 := [45, 154, 220, 170, 219, 89, 235, 234]
def raydiumCpmmInitializeDisc : List UInt8 := [175, 175, 109, 31, 13, 152, 155, 237]
def pumpSwapDepositDisc : List UInt8 := [242, 35, 198, 137, 82, 225, 242, 182]
def pumpSwapWithdrawDisc : List UInt8 := [183, 18, 70, 156, 148, 109, 161, 34]

/-- The data reach past a tag of this length, and the tag is one of those listed. -/
def startsWith (data : List UInt8) (tagLength : Nat) (tags : List (List UInt8)) : Decoded Bool :=
  if data.length < tagLength then pure false
  else do
    let disc ← Account.slice data 0 tagLength
    return decide (disc ∈ tags)

theorem returns_startsWith (data : List UInt8) (tagLength : Nat) (tags : List (List UInt8)) :
    Returns (startsWith data tagLength tags) := by
  rw [startsWith]
  split
  · exact returns_pure _
  · next reaches =>
      exact returns_bind _ _ (Account.returns_slice data 0 tagLength (by omega))
        (fun disc => returns_pure _)

structure GraduationEvent where
  tokenMint : Pubkey
  pumpPool : Pubkey
  creator : Option Pubkey
  poolBaseMint : Option Pubkey
  poolQuoteMint : Option Pubkey

/-- `create_pool`; the mint that is not WSOL is the token. -/
def poolCreated (accounts : List Pubkey) (accs : List UInt8) : Decoded (Option GraduationEvent) := do
  let pumpPool ← ofOption (accountAt 0 accs accounts)
  let creatorIndex ← ofOption accs[2]?
  let mintA ← ofOption (accountAt 3 accs accounts)
  let mintB ← ofOption (accountAt 4 accs accounts)
  let tokenMint := if mintA = wsol then mintB else mintA
  if tokenMint = wsol then return none
  else return some ⟨tokenMint, pumpPool, accounts[creatorIndex.toNat]?, some mintA, some mintB⟩

def migrated (tokenPlace poolPlace : Nat) (accounts : List Pubkey) (accs : List UInt8) :
    Decoded (Option GraduationEvent) := do
  let tokenMint ← ofOption (accountAt tokenPlace accs accounts)
  let pumpPool ← ofOption (accountAt poolPlace accs accounts)
  return some ⟨tokenMint, pumpPool, none, none, none⟩

/-- The pool is the fourth account if a venue's program is among those from there on. -/
def moonshotMigrated (accounts : List Pubkey) (accs : List UInt8) :
    Decoded (Option GraduationEvent) := do
  let tokenMint ← ofOption (accountAt 1 accs accounts)
  let curveAccount ← ofOption (accountAt 2 accs accounts)
  let venues := [some DexPrograms.raydiumAmmV4, some DexPrograms.meteoraDlmm,
    some meteoraDynamicProgram]
  if (accs.drop 3).any (fun index => decide (accounts[index.toNat]? ∈ venues)) then do
    let third ← ofOption accs[3]?
    return some ⟨tokenMint, (accounts[third.toNat]?).getD curveAccount, none, none, none⟩
  else return some ⟨tokenMint, curveAccount, none, none, none⟩

/-- The graduation in one instruction. `?` leaves the whole search. -/
def graduationOf (accounts : List Pubkey) (prog : Pubkey) (ix : CompiledInstruction) :
    Decoded (Option GraduationEvent) :=
  if prog = DexPrograms.pumpswap then do
    let found ← startsWith ix.data 8 [pumpSwapCreatePoolDisc]
    if found then poolCreated accounts ix.accounts else return none
  else if prog = pumpFunProgram then do
    let found ← startsWith ix.data 8 [pumpFunMigrateDisc]
    if found then migrated 0 2 accounts ix.accounts else return none
  else if prog = raydiumLaunchlab then do
    let found ← startsWith ix.data 8 [launchLabMigrateAmmDisc, launchLabMigrateCpswapDisc]
    if found then migrated 2 1 accounts ix.accounts else return none
  else if prog = moonshot then do
    let found ← startsWith ix.data 8 [moonshotMigrateCamelDisc, moonshotMigrateSnakeDisc,
      moonitMigrateMeteoraDisc, moonitMigrationDammV2Disc]
    if found then moonshotMigrated accounts ix.accounts else return none
  else return none

/-! The launchpads as numbers: they are apart, and none is the program of a DEX. -/

theorem launchpad_numbers :
    pumpFunProgram.toNat =
        605814335005781813025241542787157911726959411820757128006101511735853521072 ∧
      raydiumLaunchlab.toNat =
        2269042859434166448385157605447593008716662538106545696250340109426254530850 ∧
      moonshot.toNat =
        2410934384591440803147444625975917724320808275659964519383805872757841576921 := by
  refine ⟨?_, ?_, ?_⟩
  · decide +kernel
  · decide +kernel
  · decide +kernel

theorem ne_of_numbers {first second : Pubkey} {a b : Nat} (named : first.toNat = a)
    (other : second.toNat = b) (apart : a ≠ b) : first ≠ second := by
  intro same
  rw [same, other] at named
  exact apart named.symm

theorem launchpads_ne : raydiumLaunchlab ≠ pumpFunProgram ∧ moonshot ≠ pumpFunProgram ∧
    moonshot ≠ raydiumLaunchlab := by
  rcases launchpad_numbers with ⟨funs, lab, moon⟩
  exact ⟨ne_of_numbers lab funs (by decide), ne_of_numbers moon funs (by decide),
    ne_of_numbers moon lab (by decide)⟩

theorem launchpads_ne_dexProgramFor (dex : DexType) :
    pumpFunProgram ≠ CrossDex.dexProgramFor dex ∧ raydiumLaunchlab ≠ CrossDex.dexProgramFor dex ∧
      moonshot ≠ CrossDex.dexProgramFor dex := by
  rcases launchpad_numbers with ⟨funs, lab, moon⟩
  have dexes := CrossDex.toNat_dexProgramFor dex
  refine ⟨ne_of_numbers funs dexes ?_, ne_of_numbers lab dexes ?_, ne_of_numbers moon dexes ?_⟩
  · cases dex <;> decide
  · cases dex <;> decide
  · cases dex <;> decide

def detectGraduation (accounts : List Pubkey) : List CompiledInstruction → Decoded GraduationEvent
  | [] => refused
  | ix :: rest =>
      match accounts[ix.programIdIndex.toNat]? with
      | none => detectGraduation accounts rest
      | some prog => do
          match ← graduationOf accounts prog ix with
          | some event => pure event
          | none => detectGraduation accounts rest

theorem answers_poolCreated (accounts : List Pubkey) (accs : List UInt8) :
    Answers (poolCreated accounts accs) := by
  apply answers_bind _ _ (answers_ofOption _)
  intro pumpPool _
  apply answers_bind _ _ (answers_ofOption _)
  intro creatorIndex _
  apply answers_bind _ _ (answers_ofOption _)
  intro mintA _
  apply answers_bind _ _ (answers_ofOption _)
  intro mintB _
  dsimp only
  generalize (if mintA = wsol then mintB else mintA) = tokenMint
  split
  · exact answers_pure _
  · exact answers_pure _

theorem answers_migrated (tokenPlace poolPlace : Nat) (accounts : List Pubkey)
    (accs : List UInt8) : Answers (migrated tokenPlace poolPlace accounts accs) := by
  apply answers_bind _ _ (answers_ofOption _)
  intro tokenMint _
  apply answers_bind _ _ (answers_ofOption _)
  intro pumpPool _
  exact answers_pure _

theorem answers_moonshotMigrated (accounts : List Pubkey) (accs : List UInt8) :
    Answers (moonshotMigrated accounts accs) := by
  apply answers_bind _ _ (answers_ofOption _)
  intro tokenMint _
  apply answers_bind _ _ (answers_ofOption _)
  intro curveAccount _
  dsimp only
  split
  · exact answers_bind _ _ (answers_ofOption _) (fun third _ => answers_pure _)
  · exact answers_pure _

/-- A test of the tag, then the accounts. -/
theorem answers_tagged (data : List UInt8) (tags : List (List UInt8))
    (event : Decoded (Option GraduationEvent)) (answers : Answers event) :
    Answers (do
      let found ← startsWith data 8 tags
      if found then event else return none) := by
  apply answers_bind _ _ (returns_startsWith data 8 tags).answers
  intro found _
  cases found with
  | false => exact answers_pure _
  | true => exact answers

theorem answers_graduationOf (accounts : List Pubkey) (prog : Pubkey) (ix : CompiledInstruction) :
    Answers (graduationOf accounts prog ix) := by
  rw [graduationOf]
  split
  · exact answers_tagged _ _ _ (answers_poolCreated accounts ix.accounts)
  split
  · exact answers_tagged _ _ _ (answers_migrated 0 2 accounts ix.accounts)
  split
  · exact answers_tagged _ _ _ (answers_migrated 2 1 accounts ix.accounts)
  split
  · exact answers_tagged _ _ _ (answers_moonshotMigrated accounts ix.accounts)
  · exact answers_pure _

theorem answers_detectGraduation (accounts : List Pubkey)
    (instructions : List CompiledInstruction) :
    Answers (detectGraduation accounts instructions) := by
  induction instructions with
  | nil => exact answers_refused
  | cons ix rest ih =>
      rw [detectGraduation]
      split
      · exact ih
      · next prog _ =>
          apply answers_bind _ _ (answers_graduationOf accounts prog ix)
          intro found _
          cases found with
          | none => exact ih
          | some event => exact answers_pure _

inductive PoolCreationDex where
  | raydiumAmmV4
  | raydiumCpmm
  | orcaWhirlpool
  | meteoraDlmm

structure PoolCreationEvent where
  pool : Pubkey
  tokenA : Pubkey
  tokenB : Pubkey
  dex : PoolCreationDex

/-- How an instruction that creates a pool is told, and where its accounts stand. -/
structure CreationLayout where
  program : Pubkey
  tag : List UInt8
  dex : PoolCreationDex
  above : Nat
  poolPlace : Nat
  mintAPlace : Nat
  mintBPlace : Nat

def creationLayouts : List CreationLayout :=
  [⟨DexPrograms.raydiumAmmV4, [1], .raydiumAmmV4, 9, 4, 8, 9⟩,
    ⟨DexPrograms.orcaWhirlpool, orcaInitializePoolDisc, .orcaWhirlpool, 4, 4, 1, 2⟩,
    ⟨DexPrograms.meteoraDlmm, meteoraInitializeLbPairDisc, .meteoraDlmm, 3, 0, 2, 3⟩,
    ⟨DexPrograms.raydiumCpmm, raydiumCpmmInitializeDisc, .raydiumCpmm, 6, 3, 5, 6⟩]

def creationOf (accounts : List Pubkey) (ix : CompiledInstruction) (layout : CreationLayout) :
    Decoded (Option PoolCreationEvent) :=
  if accounts[ix.programIdIndex.toNat]? = some layout.program then do
    let found ← startsWith ix.data layout.tag.length [layout.tag]
    if found = true ∧ layout.above < ix.accounts.length then return do
      let pool ← accountAt layout.poolPlace ix.accounts accounts
      let tokenA ← accountAt layout.mintAPlace ix.accounts accounts
      let tokenB ← accountAt layout.mintBPlace ix.accounts accounts
      some ⟨pool, tokenA, tokenB, layout.dex⟩
    else return none
  else return none

def detectPoolCreations (tx : TxMessage) : Decoded (List PoolCreationEvent) := do
  let found ← tx.instructions.mapM (fun ix =>
    creationLayouts.mapM (creationOf tx.accountKeys ix))
  return found.flatten.reduceOption

theorem returns_creationOf (accounts : List Pubkey) (ix : CompiledInstruction)
    (layout : CreationLayout) : Returns (creationOf accounts ix layout) := by
  rw [creationOf]
  split
  · apply returns_bind _ _ (returns_startsWith _ _ _)
    intro found
    split
    · exact returns_pure _
    · exact returns_pure _
  · exact returns_pure _

theorem returns_detectPoolCreations (tx : TxMessage) : Returns (detectPoolCreations tx) := by
  apply returns_bind
  · rw [returns_mapM_iff]
    intro ix _
    rw [returns_mapM_iff]
    intro layout _
    exact returns_creationOf tx.accountKeys ix layout
  · intro found
    exact returns_pure _

structure LpEvent where
  pool : Pubkey
  isRemove : Bool
  estimatedAmount : Nat

structure LpLayout where
  program : Pubkey
  tagLength : Nat
  addTag : List UInt8
  removeTag : List UInt8
  poolPlace : Nat

def lpLayouts : List LpLayout :=
  [⟨DexPrograms.raydiumAmmV4, 1, [3], [4], 1⟩,
    ⟨DexPrograms.pumpswap, 8, pumpSwapDepositDisc, pumpSwapWithdrawDisc, 0⟩]

def lpEventOf (accounts : List Pubkey) (ix : CompiledInstruction) (layout : LpLayout) :
    Decoded (Option LpEvent) :=
  if accounts[ix.programIdIndex.toNat]? = some layout.program then do
    let adds ← startsWith ix.data layout.tagLength [layout.addTag]
    let removes ← startsWith ix.data layout.tagLength [layout.removeTag]
    if adds ∨ removes then
      match accountAt layout.poolPlace ix.accounts accounts with
      | none => return none
      | some pool => do
          let amount ← Checked.amountIfLong ix.data layout.tagLength
          return some ⟨pool, removes, amount⟩
    else return none
  else return none

def detectLpEvents (tx : TxMessage) : Decoded (List LpEvent) := do
  let found ← tx.instructions.mapM (fun ix => lpLayouts.mapM (lpEventOf tx.accountKeys ix))
  return found.flatten.reduceOption

theorem returns_lpEventOf (accounts : List Pubkey) (ix : CompiledInstruction) (layout : LpLayout) :
    Returns (lpEventOf accounts ix layout) := by
  rw [lpEventOf]
  split
  · apply returns_bind _ _ (returns_startsWith _ _ _)
    intro adds
    apply returns_bind _ _ (returns_startsWith _ _ _)
    intro removes
    split
    · split
      · exact returns_pure _
      · apply returns_bind _ _ ⟨_, Checked.amountIfLong_eq ix.data layout.tagLength⟩
        intro amount
        exact returns_pure _
    · exact returns_pure _
  · exact returns_pure _

theorem returns_detectLpEvents (tx : TxMessage) : Returns (detectLpEvents tx) := by
  apply returns_bind
  · rw [returns_mapM_iff]
    intro ix _
    rw [returns_mapM_iff]
    intro layout _
    exact returns_lpEventOf tx.accountKeys ix layout
  · intro found
    exact returns_pure _

end SwapDecoder

namespace PoolStateCache

def poolsForToken (cache : PoolStateCache) (mint : Pubkey) : List DexPool :=
  (HashMap.values cache.inner).filter (fun pool => decide (pool.tokenA = mint ∨ pool.tokenB = mint))

end PoolStateCache

namespace SignalProcessor

def monitoredPrograms : List Pubkey :=
  [DexPrograms.raydiumAmmV4, DexPrograms.raydiumClmm, DexPrograms.orcaWhirlpool,
    DexPrograms.meteoraDlmm, meteoraDynamicProgram, DexPrograms.pumpswap, pumpFunProgram,
    jupiterProgram, DexPrograms.fluxbeam, DexPrograms.saber, DexPrograms.raydiumCpmm,
    raydiumLaunchlab, moonshot]

/-- `account_keys[index]`. -/
def keyAt (accounts : List Pubkey) (index : UInt8) : Decoded Pubkey :=
  match accounts[index.toNat]? with
  | some key => value key
  | none => panicked

/-- The one consumer of a program index that does not test it. -/
def extractProgramIds (tx : TxMessage) : Decoded (List Pubkey) :=
  tx.instructions.mapM (fun ix => keyAt tx.accountKeys ix.programIdIndex)

theorem returns_keyAt_iff (accounts : List Pubkey) (index : UInt8) :
    Returns (keyAt accounts index) ↔ index.toNat < accounts.length := by
  rw [keyAt]
  cases found : accounts[index.toNat]? with
  | none =>
      have past := List.getElem?_eq_none_iff.mp found
      constructor
      · intro ⟨key, same⟩
        cases same
      · intro inside
        omega
  | some key =>
      constructor
      · intro _
        exact (List.getElem?_eq_some_iff.mp found).1
      · intro _
        exact ⟨key, rfl⟩

theorem returns_extractProgramIds_iff (tx : TxMessage) : Returns (extractProgramIds tx) ↔
    ∀ ix ∈ tx.instructions, ix.programIdIndex.toNat < tx.accountKeys.length := by
  simp only [extractProgramIds, returns_mapM_iff, returns_keyAt_iff]

def graduationSource (accounts : List Pubkey) : Option String :=
  if raydiumLaunchlab ∈ accounts then some "LaunchLab (BONK.fun)"
  else if moonshot ∈ accounts then some "Moonshot"
  else if DexPrograms.pumpswap ∈ accounts then some "PumpSwap"
  else none

def graduationDexType (accounts : List Pubkey) (source : String) : DexType :=
  if source = "Moonshot" then
    if DexPrograms.raydiumAmmV4 ∈ accounts then .raydiumAmmV4
    else if DexPrograms.meteoraDlmm ∈ accounts ∨ meteoraDynamicProgram ∈ accounts then .meteoraDlmm
    else .raydiumAmmV4
  else if source = "LaunchLab (BONK.fun)" then .raydiumAmmV4
  else .pumpSwap

/-- A pool not hydrated yet. -/
def newPool (now : Instant) (address : Pubkey) (dexType : DexType) (tokenA tokenB : Pubkey)
    (decimalsA decimalsB reserveA reserveB feeBps : Nat) : DexPool where
  poolAddress := address
  dexType := dexType
  tokenA := tokenA
  tokenB := tokenB
  decimalsA := decimalsA
  decimalsB := decimalsB
  reserveA := reserveA
  reserveB := reserveB
  reserveAOptimistic := 0
  reserveBOptimistic := 0
  lastShredUpdate := now
  poolVaultABalance := 0
  poolVaultBBalance := 0
  marketVaultABalance := 0
  marketVaultBBalance := 0
  lastUpdated := now
  feeBps := feeBps
  raydiumMeta := none
  orcaMeta := none
  meteoraMeta := none

/-- The pool a graduation puts into the cache, with the reserves such a pool usually
starts with, unless the token has more than two pools already. -/
def graduationPool (now : Instant) (accounts : List Pubkey) (source : String)
    (cache : PoolStateCache) (event : GraduationEvent) : DexPool :=
  let tokens := match event.poolBaseMint, event.poolQuoteMint with
    | some base, some quote => (base, quote)
    | _, _ => (wsol, event.tokenMint)
  let reserves :=
    if (cache.poolsForToken event.tokenMint).length ≤ 2 then
      if tokens.1 = wsol then (79000000000, 206000000000) else (206000000000, 79000000000)
    else (0, 0)
  let dexType := graduationDexType accounts source
  newPool now event.pumpPool dexType tokens.1 tokens.2 9 (if tokens.1 = wsol then 6 else 9)
    reserves.1 reserves.2 (if dexType = .meteoraDlmm then 30 else 25)

def creationDexType : PoolCreationDex → DexType
  | .raydiumAmmV4 => .raydiumAmmV4
  | .raydiumCpmm => .raydiumCpmm
  | .orcaWhirlpool => .orcaWhirlpool
  | .meteoraDlmm => .meteoraDlmm

def insertCreated (now : Instant) (cache : PoolStateCache) (creation : PoolCreationEvent) :
    PoolStateCache :=
  if (cache.get creation.pool).isSome then cache
  else cache.upsert (newPool now creation.pool (creationDexType creation.dex) creation.tokenA
    creation.tokenB 9 6 0 0 25)

/-- What `handle_new_tx` makes of a transaction. -/
inductive Handled where
  | graduated (source : String) (event : GraduationEvent)
  | dropped (creations : List PoolCreationEvent) (lpEvents : List LpEvent)
  | decoded (creations : List PoolCreationEvent) (lpEvents : List LpEvent)
      (swaps : List DetectedSwap)

section Handling

variable {F : Type} [FloatArith F] (powf : F → F → F) (now : Instant)

/-- A decoded swap moves the reserves of its pool by the pool's own quote. -/
def applySwap (cache : PoolStateCache) (swap : DetectedSwap) : PoolStateCache :=
  match cache.get swap.pool with
  | some pool =>
      cache.applySwapDelta powf now swap.pool swap.amountIn
        (pool.quote powf now swap.aToB swap.amountIn) swap.aToB
  | none => cache.applySwapDelta powf now swap.pool 0 0 swap.aToB

/-- Pool creations are looked for only with a monitor attached. -/
def watchedCreations (monitor : Bool) (tx : TxMessage) : Decoded (List PoolCreationEvent) :=
  if monitor then detectPoolCreations tx else pure []

/-- What follows when no graduation is found. -/
def handleOther (monitor : Bool) (cache : PoolStateCache) (programIds : List Pubkey)
    (tx : TxMessage) : Decoded (PoolStateCache × Handled) := do
  let creations ← watchedCreations monitor tx
  let filled := creations.foldl (insertCreated now) cache
  let lpEvents ← detectLpEvents tx
  if programIds.all (fun prog => decide (prog ∉ monitoredPrograms)) then
    return (filled, .dropped creations lpEvents)
  else do
    let swaps ← Checked.decodeSwaps tx
    let moved := swaps.foldl (applySwap powf now) filled
    return (if swaps = [] then moved.bumpSwapGeneration else moved,
      .decoded creations lpEvents swaps)

def handleNewTx (monitor : Bool) (cache : PoolStateCache) (tx : TxMessage) :
    Decoded (PoolStateCache × Handled) := do
  let programIds ← extractProgramIds tx
  match graduationSource tx.accountKeys with
  | none => handleOther powf now monitor cache programIds tx
  | some source =>
      match ← attempt (detectGraduation tx.accountKeys tx.instructions) with
      | some event =>
          return (cache.upsert (graduationPool now tx.accountKeys source cache event),
            .graduated source event)
      | none => handleOther powf now monitor cache programIds tx

/-- A transaction of the Turbine pipeline: the tracker's two passes, then the signal
processor. -/
def onTransaction (monitor : Bool) (slot : Nat) (state : Tracked) (tx : TxMessage) :
    Decoded (Tracked × Handled) := do
  let tracked ← state.processTransaction now tx
  let noted := tracked.tracker.detectDexActivity tracked.cache slot tx
  let (cache, handled) ← handleNewTx powf now monitor tracked.cache tx
  return (⟨noted, cache⟩, handled)

theorem returns_handleOther (monitor : Bool) (cache : PoolStateCache) (programIds : List Pubkey)
    (tx : TxMessage) : Returns (handleOther powf now monitor cache programIds tx) := by
  have creations : Returns (watchedCreations monitor tx) := by
    cases monitor with
    | false => exact returns_pure _
    | true => exact returns_detectPoolCreations tx
  apply returns_bind _ _ creations
  intro created
  apply returns_bind _ _ (returns_detectLpEvents tx)
  intro lpEvents
  split
  · exact returns_pure _
  · exact returns_bind _ _ ⟨_, Checked.decodeSwaps_eq tx⟩ (fun swaps => returns_pure _)

theorem returns_handleNewTx_iff (monitor : Bool) (cache : PoolStateCache) (tx : TxMessage) :
    Returns (handleNewTx powf now monitor cache tx) ↔ Returns (extractProgramIds tx) := by
  constructor
  · intro returns
    rcases returns_of_bind _ _ returns with ⟨programIds, same, -⟩
    exact ⟨programIds, same⟩
  · intro returns
    apply returns_bind _ _ returns
    intro programIds
    split
    · exact returns_handleOther powf now monitor cache programIds tx
    · apply returns_bind _ _ (returns_attempt _
        (answers_detectGraduation tx.accountKeys tx.instructions))
      intro found
      cases found with
      | none => exact returns_handleOther powf now monitor cache programIds tx
      | some event => exact returns_pure _

/-- A transaction goes through both without an index out of bounds exactly if every
instruction's program is among the message's keys. -/
theorem transaction_handled_iff (monitor : Bool) (slot : Nat) (state : Tracked) (tx : TxMessage) :
    (∃ after, onTransaction powf now monitor slot state tx = value after) ↔
      ∀ ix ∈ tx.instructions, ix.programIdIndex.toNat < tx.accountKeys.length := by
  rw [← returns_extractProgramIds_iff]
  constructor
  · intro returns
    rcases returns_of_bind _ _ returns with ⟨tracked, -, later⟩
    rcases returns_of_bind _ _ later with ⟨result, handled, -⟩
    exact (returns_handleNewTx_iff powf now monitor tracked.cache tx).mp ⟨result, handled⟩
  · intro returns
    apply returns_bind _ _ (state.returns_processTransaction now tx)
    intro tracked
    apply returns_bind _ _ ((returns_handleNewTx_iff powf now monitor tracked.cache tx).mpr returns)
    intro result
    exact returns_pure _

end Handling

/-- One account, and an instruction of the second. -/
def programPastKeys : TxMessage := ⟨[.ofNat 1], [⟨1, [0], []⟩]⟩

theorem program_past_keys_panics :
    onTransaction (fun base _ => base : ℚ → ℚ → ℚ) 0 false 0
      ⟨.new HashMap.empty, .new⟩ programPastKeys = panicked := rfl

end SignalProcessor

end Helios
