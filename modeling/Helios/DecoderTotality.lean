import Helios.AccountDecoders

/-! The decoders of the smaller venues, and what lengths of an account each decoder
can bear. -/

namespace Helios

open Machine

/-- `data[place]`. -/
def Account.index (data : Account) (place : Nat) : Decoded UInt8 :=
  match data[place]? with
  | some byte => .value byte
  | none => .panicked

/-- `Pubkey::try_from(&data[offset..offset + 32]).ok()?`. -/
def Account.tryKey (data : Account) (offset : Nat) : Decoded Pubkey := do
  let bytes ← Account.slice data offset 32
  return Pubkey.ofBytes bytes

/-- `u64::from_le_bytes(data[offset..offset + 8].try_into().ok()?)`. -/
def Account.sliceU64 (data : Account) (offset : Nat) : Decoded Nat := do
  let bytes ← Account.slice data offset 8
  return ofLeBytes bytes

namespace Saber

structure SaberPoolInfo where
  tokenA : Pubkey
  tokenB : Pubkey
  vaultA : Pubkey
  vaultB : Pubkey
  ampFactor : Nat
  feeNumerator : Nat
  feeDenominator : Nat

def saberDefaultFeeNumerator : Nat := 4
def saberDefaultFeeDenominator : Nat := 10000

def decodeSaberPool (data : Account) : Decoded SaberPoolInfo :=
  if data.length < 348 then .refused
  else do
    let isInitialized ← data.index 1
    if isInitialized = 0 then .refused
    else do
      let isPaused ← data.index 2
      if isPaused ≠ 0 then .refused
      else do
        let initialAmp ← data.sliceU64 4
        let targetAmp ← data.sliceU64 12
        let ampFactor := if targetAmp > 0 then targetAmp else initialAmp
        let vaultA ← data.tryKey 108
        let vaultB ← data.tryKey 140
        let tokenA ← data.tryKey 204
        let tokenB ← data.tryKey 236
        let feeNumerator ← data.sliceU64 332
        let feeDenominator ← data.sliceU64 340
        if tokenA = default ∨ tokenB = default ∨ vaultA = default ∨ vaultB = default then
          .refused
        else if ampFactor = 0 then .refused
        else return {
          tokenA, tokenB, vaultA, vaultB, ampFactor
          feeNumerator := if feeDenominator > 0 then feeNumerator else saberDefaultFeeNumerator
          feeDenominator :=
            if feeDenominator > 0 then feeDenominator else saberDefaultFeeDenominator }

end Saber

namespace Fluxbeam

structure FluxbeamPoolInfo where
  tokenA : Pubkey
  tokenB : Pubkey
  vaultA : Pubkey
  vaultB : Pubkey
  feeBps : Nat

def decodeFluxbeamPool (data : Account) : Decoded FluxbeamPoolInfo :=
  if data.length < 389 then .refused
  else do
    let status ← data.sliceU64 8
    if status = 0 then .refused
    else do
      let tokenA ← data.tryKey 261
      let tokenB ← data.tryKey 293
      let vaultA ← data.tryKey 325
      let vaultB ← data.tryKey 357
      if tokenA = default ∨ tokenB = default ∨ vaultA = default ∨ vaultB = default then .refused
      else return { tokenA, tokenB, vaultA, vaultB, feeBps := 30 }

end Fluxbeam

namespace RaydiumCpmm

structure CpmmPoolInfo where
  token0 : Pubkey
  token1 : Pubkey
  vault0 : Pubkey
  vault1 : Pubkey
  token0Program : Pubkey
  token1Program : Pubkey
  feeBps : Nat

def decodeCpmmPool (data : Account) : Decoded CpmmPoolInfo :=
  if data.length < 381 then .refused
  else do
    let status ← data.index 329
    if status ≠ 1 then .refused
    else do
      let vault0 ← data.tryKey 72
      let vault1 ← data.tryKey 104
      let token0 ← data.tryKey 168
      let token1 ← data.tryKey 200
      let token0Program ← data.tryKey 232
      let token1Program ← data.tryKey 264
      if token0 = default ∨ token1 = default ∨ vault0 = default ∨ vault1 = default then .refused
      else return { token0, token1, vault0, vault1, token0Program, token1Program, feeBps := 25 }

end RaydiumCpmm

namespace Decoded

variable {α β : Type}

instance : LawfulMonad Decoded := LawfulMonad.mk' Decoded
  (by
    intro α result
    cases result with
    | panicked => rfl
    | refused => rfl
    | value decoded => rfl)
  (fun _ _ => rfl)
  (by
    intro α β γ result next last
    cases result with
    | panicked => rfl
    | refused => rfl
    | value decoded => rfl)

/-- The decoding ends with a value or a refusal. -/
def Answers (result : Decoded α) : Prop := result ≠ panicked

@[simp] theorem answers_value (decoded : α) : Answers (value decoded) := fun same => nomatch same

@[simp] theorem answers_pure (decoded : α) : Answers (pure decoded : Decoded α) :=
  answers_value decoded

@[simp] theorem answers_refused : Answers (refused : Decoded α) := fun same => nomatch same

@[simp] theorem answers_ofOption (found : Option α) : Answers (ofOption found) := by
  cases found with
  | none => exact answers_refused
  | some decoded => exact answers_value decoded

theorem answers_bind (first : Decoded α) (next : α → Decoded β) (here : Answers first)
    (later : ∀ decoded, first = value decoded → Answers (next decoded)) :
    Answers (first >>= next) := by
  cases first with
  | panicked => exact absurd rfl here
  | refused => exact answers_refused
  | value decoded => exact later decoded rfl

theorem answers_mapM (f : α → Decoded β) (inputs : List α)
    (each : ∀ input ∈ inputs, Answers (f input)) : Answers (inputs.mapM f) := by
  induction inputs with
  | nil => exact answers_value []
  | cons input rest ih =>
      rw [List.mapM_cons]
      apply answers_bind _ _ (each input List.mem_cons_self)
      intro decoded _
      apply answers_bind _ _ (ih (fun other member => each other (List.mem_cons_of_mem _ member)))
      intro others _
      exact answers_value _

theorem mapM_congr (f g : α → Decoded β) (inputs : List α)
    (same : ∀ input ∈ inputs, f input = g input) : inputs.mapM f = inputs.mapM g := by
  induction inputs with
  | nil => rfl
  | cons input rest ih =>
      rw [List.mapM_cons, List.mapM_cons, same input List.mem_cons_self,
        ih (fun other member => same other (List.mem_cons_of_mem _ member))]

/-- A test that refuses the account. -/
theorem answers_guard (fails : Prop) [Decidable fails] (rest : Decoded α)
    (passed : ¬ fails → Answers rest) : Answers (if fails then refused else rest) := by
  split
  · exact answers_refused
  · next held => exact passed held

/-- The decoding ends with a value. -/
def Returns (result : Decoded α) : Prop := ∃ decoded, result = value decoded

theorem returns_pure (decoded : α) : Returns (pure decoded : Decoded α) := ⟨decoded, rfl⟩

theorem Returns.answers {result : Decoded α} (returns : Returns result) : Answers result := by
  rcases returns with ⟨decoded, same⟩
  rw [same]
  exact answers_value decoded

theorem returns_bind (first : Decoded α) (next : α → Decoded β) (here : Returns first)
    (later : ∀ decoded, Returns (next decoded)) : Returns (first >>= next) := by
  rcases here with ⟨decoded, same⟩
  rw [same]
  exact later decoded

theorem returns_map (f : α → β) (result : Decoded α) (returns : Returns result) :
    Returns (f <$> result) := by
  rcases returns with ⟨decoded, same⟩
  rw [same]
  exact ⟨f decoded, rfl⟩

theorem returns_of_bind (first : Decoded α) (next : α → Decoded β)
    (returns : Returns (first >>= next)) : ∃ decoded, first = value decoded ∧ Returns (next decoded) := by
  rcases returns with ⟨result, same⟩
  rcases (bind_eq_value_iff first next result).mp same with ⟨decoded, here, later⟩
  exact ⟨decoded, here, result, later⟩

theorem returns_mapM_iff (f : α → Decoded β) (inputs : List α) :
    Returns (inputs.mapM f) ↔ ∀ input ∈ inputs, Returns (f input) := by
  induction inputs with
  | nil =>
      constructor
      · intro _ input member
        cases member
      · intro _
        exact returns_pure []
  | cons input rest ih =>
      rw [List.mapM_cons, List.forall_mem_cons]
      constructor
      · intro returns
        rcases returns_of_bind _ _ returns with ⟨decoded, same, later⟩
        rcases returns_of_bind _ _ later with ⟨others, tail, -⟩
        exact ⟨⟨decoded, same⟩, ih.mp ⟨others, tail⟩⟩
      · intro ⟨here, later⟩
        apply returns_bind _ _ here
        intro decoded
        exact returns_bind _ _ (ih.mpr later) (fun others => returns_pure _)

theorem returns_foldlM (step : β → α → Decoded β) (inputs : List α) (start : β)
    (each : ∀ state input, Returns (step state input)) : Returns (inputs.foldlM step start) := by
  induction inputs generalizing start with
  | nil => exact returns_pure start
  | cons input rest ih =>
      rw [List.foldlM_cons]
      exact returns_bind _ _ (each start input) ih

/-- What the caller of a function with `?` in it gets. -/
def attempt : Decoded α → Decoded (Option α)
  | panicked => panicked
  | refused => value none
  | value decoded => value (some decoded)

theorem returns_attempt (result : Decoded α) (answers : Answers result) :
    Returns (attempt result) := by
  cases result with
  | panicked => exact absurd rfl answers
  | refused => exact ⟨none, rfl⟩
  | value decoded => exact ⟨some decoded, rfl⟩

end Decoded

namespace Account

open Decoded

theorem slice_of_inside (data : Account) (offset width : Nat)
    (inside : offset + width ≤ data.length) :
    Account.slice data offset width = value ((data.drop offset).take width) := by
  rw [Account.slice, Account.get, if_pos inside]

theorem get_eq_none_iff (data : Account) (offset width : Nat) :
    Account.get data offset width = none ↔ data.length < offset + width := by
  rw [Account.get]
  split
  · simp only [reduceCtorEq, false_iff]
    omega
  · simp only [true_iff]
    omega

theorem slice_eq_panicked_iff (data : Account) (offset width : Nat) :
    Account.slice data offset width = panicked ↔ data.length < offset + width := by
  rw [Account.slice, ← get_eq_none_iff]
  cases Account.get data offset width with
  | none => simp
  | some bytes => simp

theorem answers_slice (data : Account) (offset width : Nat)
    (inside : offset + width ≤ data.length) : Answers (Account.slice data offset width) := by
  rw [Answers, Ne, slice_eq_panicked_iff]
  omega

theorem answers_index (data : Account) (place : Nat) (inside : place < data.length) :
    Answers (data.index place) := by
  rw [index, List.getElem?_eq_getElem inside]
  exact answers_value _

theorem returns_slice (data : Account) (offset width : Nat)
    (inside : offset + width ≤ data.length) : Returns (Account.slice data offset width) :=
  ⟨_, slice_of_inside data offset width inside⟩

theorem returns_index (data : Account) (place : Nat) (inside : place < data.length) :
    Returns (data.index place) := by
  rw [index, List.getElem?_eq_getElem inside]
  exact ⟨_, rfl⟩

theorem sliceU64_of_inside (data : Account) (offset : Nat) (inside : offset + 8 ≤ data.length) :
    data.sliceU64 offset = value (ofLeBytes ((data.drop offset).take 8)) := by
  rw [sliceU64, slice_of_inside data offset 8 inside]
  rfl

theorem returns_sliceU64 (data : Account) (offset : Nat) (inside : offset + 8 ≤ data.length) :
    Returns (data.sliceU64 offset) := ⟨_, sliceU64_of_inside data offset inside⟩

theorem answers_tryKey (data : Account) (offset : Nat) (inside : offset + 32 ≤ data.length) :
    Answers (data.tryKey offset) :=
  answers_bind _ _ (answers_slice data offset 32 inside) (fun _ _ => answers_pure _)

theorem answers_sliceU64 (data : Account) (offset : Nat) (inside : offset + 8 ≤ data.length) :
    Answers (data.sliceU64 offset) :=
  answers_bind _ _ (answers_slice data offset 8 inside) (fun _ _ => answers_pure _)

theorem answers_sliceKey (data : Account) (offset : Nat) (inside : offset + 32 ≤ data.length) :
    Answers (PoolHydrator.sliceKey data offset) :=
  answers_bind _ _ (answers_slice data offset 32 inside) (fun _ _ => answers_ofOption _)

/-! What a read sees of an account cut behind it. -/

theorem get_take (data : Account) (guard offset width : Nat) (inside : offset + width ≤ guard)
    (long : guard ≤ data.length) :
    Account.get (data.take guard) offset width = Account.get data offset width := by
  rw [Account.get, Account.get, List.length_take, if_pos (by omega), if_pos (by omega),
    List.drop_take, List.take_take, Nat.min_eq_left (by omega)]

theorem getElem?_take_guard (data : Account) (guard place : Nat) (inside : place < guard) :
    (data.take guard)[place]? = data[place]? := List.getElem?_take_of_lt inside

theorem slice_take (data : Account) (guard offset width : Nat) (inside : offset + width ≤ guard)
    (long : guard ≤ data.length) :
    Account.slice (data.take guard) offset width = Account.slice data offset width := by
  rw [Account.slice, Account.slice, get_take data guard offset width inside long]

theorem index_take (data : Account) (guard place : Nat) (inside : place < guard) :
    Account.index (data.take guard) place = data.index place := by
  rw [index, index, getElem?_take_guard data guard place inside]

theorem tryKey_take (data : Account) (guard offset : Nat) (inside : offset + 32 ≤ guard)
    (long : guard ≤ data.length) :
    Account.tryKey (data.take guard) offset = data.tryKey offset := by
  rw [tryKey, tryKey, slice_take data guard offset 32 inside long]

theorem sliceU64_take (data : Account) (guard offset : Nat) (inside : offset + 8 ≤ guard)
    (long : guard ≤ data.length) :
    Account.sliceU64 (data.take guard) offset = data.sliceU64 offset := by
  rw [sliceU64, sliceU64, slice_take data guard offset 8 inside long]

theorem sliceKey_take (data : Account) (guard offset : Nat) (inside : offset + 32 ≤ guard)
    (long : guard ≤ data.length) :
    PoolHydrator.sliceKey (data.take guard) offset = PoolHydrator.sliceKey data offset := by
  rw [PoolHydrator.sliceKey, PoolHydrator.sliceKey, slice_take data guard offset 32 inside long]

theorem readNat_take (data : Account) (guard offset width : Nat)
    (inside : offset + width ≤ guard) (long : guard ≤ data.length) :
    Meteora.readNat (data.take guard) offset width = Meteora.readNat data offset width := by
  rw [Meteora.readNat, Meteora.readNat, get_take data guard offset width inside long]

theorem readPubkey_take (data : Account) (guard offset : Nat) (inside : offset + 32 ≤ guard)
    (long : guard ≤ data.length) :
    Meteora.readPubkey (data.take guard) offset = Meteora.readPubkey data offset := by
  rw [Meteora.readPubkey, Meteora.readPubkey, get_take data guard offset 32 inside long]

theorem length_take_guard (data : Account) (guard : Nat) (long : guard ≤ data.length) :
    (data.take guard).length = guard := by
  rw [List.length_take, Nat.min_eq_left long]

end Account

/-- The guard bounds every offset the decoder reads: what lies behind it makes no
difference. -/
def Covers {α : Type} (guard : Nat) (decode : Account → Decoded α) : Prop :=
  ∀ data : Account, guard ≤ data.length → decode (data.take guard) = decode data

namespace PoolHydrator

open Decoded Account

section

variable (pda : Pda)

theorem raydiumAmmLayouts_inside : ∀ layout ∈ raydiumAmmLayouts,
    layout.coinVaultOffset + 32 ≤ 752 ∧ layout.pcVaultOffset + 32 ≤ 752 ∧
      layout.openOrdersOffset + 32 ≤ 752 ∧ layout.targetOrdersOffset + 32 ≤ 752 ∧
      layout.marketOffset + 32 ≤ 752 ∧ layout.marketProgramOffset + 32 ≤ 752 := by decide

theorem answers_decodeLayouts (data : Account) (long : 752 ≤ data.length) (nonce : UInt8)
    (authority expectedVaultA expectedVaultB : Pubkey) (layouts : List RaydiumAmmLayout)
    (known : ∀ layout ∈ layouts, layout ∈ raydiumAmmLayouts) :
    Answers (decodeLayouts data nonce authority expectedVaultA expectedVaultB layouts) := by
  induction layouts with
  | nil => exact answers_refused
  | cons layout rest ih =>
      obtain ⟨coin, pc, orders, targets, market, program⟩ :=
        raydiumAmmLayouts_inside layout (known layout List.mem_cons_self)
      rw [decodeLayouts]
      refine answers_bind _ _ ?_ ?_
      · rw [decodeLayout]
        refine answers_bind _ _ (answers_sliceKey data _ (by omega)) (fun _ _ => ?_)
        refine answers_bind _ _ (answers_sliceKey data _ (by omega)) (fun _ _ => ?_)
        split
        · exact answers_pure _
        · refine answers_bind _ _ (answers_sliceKey data _ (by omega)) (fun _ _ => ?_)
          refine answers_bind _ _ (answers_sliceKey data _ (by omega)) (fun _ _ => ?_)
          refine answers_bind _ _ (answers_sliceKey data _ (by omega)) (fun _ _ => ?_)
          refine answers_bind _ _ (answers_sliceKey data _ (by omega)) (fun _ _ => ?_)
          exact answers_pure _
      · intro found _
        cases found with
        | none => exact ih (fun other member => known other (List.mem_cons_of_mem _ member))
        | some metadata => exact answers_pure _

theorem answers_decodeRaydiumAmm (data : Account)
    (dexProgram expectedVaultA expectedVaultB : Pubkey) :
    Answers (decodeRaydiumAmm pda data dexProgram expectedVaultA expectedVaultB) := by
  rw [decodeRaydiumAmm]
  refine answers_guard _ _ (fun long => ?_)
  refine answers_bind _ _ (answers_ofOption _) (fun nonce _ => ?_)
  refine answers_bind _ _ (answers_ofOption _) (fun authority _ => ?_)
  exact answers_decodeLayouts data (by omega) nonce authority expectedVaultA expectedVaultB
    raydiumAmmLayouts (fun _ member => member)

theorem answers_decodeSerumMarket (data : Account) (marketId marketProgram : Pubkey) :
    Answers (decodeSerumMarket pda data marketId marketProgram) := by
  rw [decodeSerumMarket]
  refine answers_guard _ _ (fun long => ?_)
  have length : 388 ≤ data.length := by
    rw [paddedMarketLen] at long
    omega
  refine answers_bind _ _ (answers_slice data _ _ (by omega)) (fun head _ => ?_)
  refine answers_guard _ _ (fun _ => ?_)
  refine answers_bind _ _ (answers_slice data _ _ (by rw [paddedMarketLen]; omega))
    (fun tail _ => ?_)
  refine answers_guard _ _ (fun _ => ?_)
  refine answers_bind _ _ (answers_slice data _ _ (by omega)) (fun _ _ => ?_)
  refine answers_bind _ _ (answers_sliceKey data _ (by omega)) (fun _ _ => ?_)
  refine answers_bind _ _ (answers_sliceKey data _ (by omega)) (fun _ _ => ?_)
  refine answers_bind _ _ (answers_sliceKey data _ (by omega)) (fun _ _ => ?_)
  refine answers_bind _ _ (answers_sliceKey data _ (by omega)) (fun _ _ => ?_)
  refine answers_bind _ _ (answers_sliceKey data _ (by omega)) (fun _ _ => ?_)
  refine answers_bind _ _ (answers_ofOption _) (fun _ _ => ?_)
  exact answers_pure _

/-- The guard asks for 237 bytes and the last key ends at 245. -/
theorem answers_decodeOrcaWhirlpool_iff (data : Account) :
    Answers (decodeOrcaWhirlpool data) ↔ data.length < 237 ∨ 245 ≤ data.length := by
  constructor
  · intro answers
    by_contra between
    apply answers
    have short : ¬ data.length < 237 := by omega
    have read : ∀ offset width, offset + width ≤ 237 →
        ∃ bytes, Account.slice data offset width = value bytes := by
      intro offset width inside
      rw [Account.slice, Account.get, if_pos (by omega)]
      exact ⟨_, rfl⟩
    obtain ⟨spacing, spacingRead⟩ := read 41 2 (by omega)
    obtain ⟨liquidity, liquidityRead⟩ := read 49 16 (by omega)
    obtain ⟨price, priceRead⟩ := read 65 16 (by omega)
    obtain ⟨tick, tickRead⟩ := read 81 4 (by omega)
    obtain ⟨key, keyRead⟩ := read 133 32 (by omega)
    have keyLength : key.length = 32 := by
      rw [Account.slice, Account.get, if_pos (by omega)] at keyRead
      cases keyRead
      rw [List.length_take, List.length_drop]
      omega
    have past : Account.slice data 213 32 = panicked :=
      (slice_eq_panicked_iff data 213 32).mpr (by omega)
    have vaultA : sliceKey data 133 = value (Pubkey.ofBytes key) := by
      rw [sliceKey, keyRead, value_bind, pubkeyFromBytes, if_neg (by omega)]
      rfl
    have vaultB : sliceKey data 213 = panicked := by
      rw [sliceKey, past]
      rfl
    rw [decodeOrcaWhirlpool, if_neg short, spacingRead, value_bind, liquidityRead, value_bind,
      priceRead, value_bind, tickRead, value_bind, vaultA, value_bind, vaultB]
    rfl
  · intro bounds
    rw [decodeOrcaWhirlpool]
    refine answers_guard _ _ (fun long => ?_)
    refine answers_bind _ _ (answers_slice data _ _ (by omega)) (fun _ _ => ?_)
    refine answers_bind _ _ (answers_slice data _ _ (by omega)) (fun _ _ => ?_)
    refine answers_bind _ _ (answers_slice data _ _ (by omega)) (fun _ _ => ?_)
    refine answers_bind _ _ (answers_slice data _ _ (by omega)) (fun _ _ => ?_)
    refine answers_bind _ _ (answers_sliceKey data _ (by omega)) (fun _ _ => ?_)
    refine answers_bind _ _ (answers_sliceKey data _ (by omega)) (fun _ _ => ?_)
    exact answers_pure _

end

end PoolHydrator

namespace Orca

open Decoded

theorem answers_decodeFixedTickArray (data : Account) (whirlpool : Pubkey) :
    Answers (decodeFixedTickArray data whirlpool) := by
  rw [decodeFixedTickArray]
  refine answers_guard _ _ (fun long => ?_)
  refine answers_bind _ _ (answers_ofOption _) (fun _ _ => ?_)
  refine answers_bind _ _ (answers_ofOption _) (fun _ _ => ?_)
  refine answers_bind _ _ (answers_ofOption _) (fun _ _ => ?_)
  refine answers_guard _ _ (fun _ => ?_)
  refine answers_bind _ _ (answers_mapM _ _ ?_) (fun _ _ => answers_pure _)
  intro idx _
  refine answers_bind _ _ (answers_ofOption _) (fun _ _ => ?_)
  refine answers_bind _ _ (answers_ofOption _) (fun _ _ => ?_)
  exact answers_bind _ _ (answers_ofOption _) (fun _ _ => answers_pure _)

/-- However far the cursor runs, its reads are checked ones. -/
theorem answers_decodeDynamicTicks (data : Account) (cursor count : Nat) :
    Answers (decodeDynamicTicks data cursor count) := by
  induction count generalizing cursor with
  | zero => exact answers_value []
  | succ count ih =>
      rw [decodeDynamicTicks]
      refine answers_bind _ _ (answers_ofOption _) (fun tag _ => ?_)
      split
      · exact answers_bind _ _ (ih (cursor + 1)) (fun _ _ => answers_pure _)
      · split
        · refine answers_bind _ _ (answers_ofOption _) (fun _ _ => ?_)
          refine answers_bind _ _ (answers_ofOption _) (fun _ _ => ?_)
          exact answers_bind _ _ (ih (cursor + 97)) (fun _ _ => answers_pure _)
        · exact answers_refused

theorem answers_decodeTickArray (data : Account) (whirlpool : Pubkey) :
    Answers (decodeTickArray data whirlpool) := by
  rw [decodeTickArray]
  split
  · exact answers_decodeFixedTickArray data whirlpool
  · split
    · rw [decodeDynamicTickArray]
      refine answers_bind _ _ (answers_ofOption _) (fun _ _ => ?_)
      refine answers_bind _ _ (answers_ofOption _) (fun _ _ => ?_)
      refine answers_guard _ _ (fun _ => ?_)
      exact answers_bind _ _ (answers_decodeDynamicTicks data 60 88) (fun _ _ => answers_pure _)
    · exact answers_refused

end Orca

namespace Meteora

open Decoded Account

theorem answers_readNat (data : Account) (offset width : Nat) :
    Answers (readNat data offset width) :=
  answers_bind _ _ (answers_ofOption _) (fun _ _ => answers_pure _)

theorem answers_readPubkey (data : Account) (offset : Nat) : Answers (readPubkey data offset) :=
  answers_bind _ _ (answers_ofOption _) (fun _ _ => answers_pure _)

theorem answers_decodeLbPair (data : Account) : Answers (decodeLbPair data) := by
  rw [decodeLbPair]
  refine answers_guard _ _ (fun long => ?_)
  refine answers_bind _ _ (answers_slice data _ _ (by omega)) (fun _ _ => ?_)
  refine answers_guard _ _ (fun _ => ?_)
  refine answers_bind _ _ (answers_readNat data _ _) (fun _ _ => ?_)
  refine answers_bind _ _ (answers_readNat data _ _) (fun _ _ => ?_)
  refine answers_bind _ _ (answers_ofOption _) (fun _ _ => ?_)
  refine answers_bind _ _ (answers_readNat data _ _) (fun _ _ => ?_)
  refine answers_bind _ _ (answers_readNat data _ _) (fun _ _ => ?_)
  refine answers_bind _ _ (answers_readNat data _ _) (fun _ _ => ?_)
  refine answers_bind _ _ (answers_readPubkey data _) (fun _ _ => ?_)
  refine answers_bind _ _ (answers_readPubkey data _) (fun _ _ => ?_)
  refine answers_bind _ _ (answers_mapM _ _ ?_) (fun _ _ => answers_pure _)
  exact fun _ _ => answers_readNat data _ _

theorem answers_decodeBinArray (data : Account) (expectedLbPair : Pubkey) :
    Answers (decodeBinArray data expectedLbPair) := by
  rw [decodeBinArray]
  refine answers_guard _ _ (fun long => ?_)
  refine answers_bind _ _ (answers_slice data _ _ (by omega)) (fun _ _ => ?_)
  refine answers_guard _ _ (fun _ => ?_)
  refine answers_bind _ _ (answers_readPubkey data _) (fun _ _ => ?_)
  refine answers_guard _ _ (fun _ => ?_)
  refine answers_bind _ _ (answers_mapM _ _ ?_) (fun _ _ => ?_)
  · intro place _
    refine answers_bind _ _ (answers_readNat data _ _) (fun _ _ => ?_)
    refine answers_bind _ _ (answers_readNat data _ _) (fun _ _ => ?_)
    exact answers_bind _ _ (answers_readNat data _ _) (fun _ _ => answers_pure _)
  · exact answers_bind _ _ (answers_readNat data _ _) (fun _ _ => answers_pure _)

end Meteora

section Venues

open Decoded Account

theorem Saber.answers_decodeSaberPool (data : Account) :
    Answers (Saber.decodeSaberPool data) := by
  rw [Saber.decodeSaberPool]
  refine answers_guard _ _ (fun long => ?_)
  refine answers_bind _ _ (answers_index data _ (by omega)) (fun _ _ => ?_)
  refine answers_guard _ _ (fun _ => ?_)
  refine answers_bind _ _ (answers_index data _ (by omega)) (fun _ _ => ?_)
  refine answers_guard _ _ (fun _ => ?_)
  refine answers_bind _ _ (answers_sliceU64 data _ (by omega)) (fun _ _ => ?_)
  refine answers_bind _ _ (answers_sliceU64 data _ (by omega)) (fun _ _ => ?_)
  refine answers_bind _ _ (answers_tryKey data _ (by omega)) (fun _ _ => ?_)
  refine answers_bind _ _ (answers_tryKey data _ (by omega)) (fun _ _ => ?_)
  refine answers_bind _ _ (answers_tryKey data _ (by omega)) (fun _ _ => ?_)
  refine answers_bind _ _ (answers_tryKey data _ (by omega)) (fun _ _ => ?_)
  refine answers_bind _ _ (answers_sliceU64 data _ (by omega)) (fun _ _ => ?_)
  refine answers_bind _ _ (answers_sliceU64 data _ (by omega)) (fun _ _ => ?_)
  refine answers_guard _ _ (fun _ => ?_)
  refine answers_guard _ _ (fun _ => ?_)
  exact answers_pure _

theorem Fluxbeam.answers_decodeFluxbeamPool (data : Account) :
    Answers (Fluxbeam.decodeFluxbeamPool data) := by
  rw [Fluxbeam.decodeFluxbeamPool]
  refine answers_guard _ _ (fun long => ?_)
  refine answers_bind _ _ (answers_sliceU64 data _ (by omega)) (fun _ _ => ?_)
  refine answers_guard _ _ (fun _ => ?_)
  refine answers_bind _ _ (answers_tryKey data _ (by omega)) (fun _ _ => ?_)
  refine answers_bind _ _ (answers_tryKey data _ (by omega)) (fun _ _ => ?_)
  refine answers_bind _ _ (answers_tryKey data _ (by omega)) (fun _ _ => ?_)
  refine answers_bind _ _ (answers_tryKey data _ (by omega)) (fun _ _ => ?_)
  refine answers_guard _ _ (fun _ => ?_)
  exact answers_pure _

theorem RaydiumCpmm.answers_decodeCpmmPool (data : Account) :
    Answers (RaydiumCpmm.decodeCpmmPool data) := by
  rw [RaydiumCpmm.decodeCpmmPool]
  refine answers_guard _ _ (fun long => ?_)
  refine answers_bind _ _ (answers_index data _ (by omega)) (fun _ _ => ?_)
  refine answers_guard _ _ (fun _ => ?_)
  refine answers_bind _ _ (answers_tryKey data _ (by omega)) (fun _ _ => ?_)
  refine answers_bind _ _ (answers_tryKey data _ (by omega)) (fun _ _ => ?_)
  refine answers_bind _ _ (answers_tryKey data _ (by omega)) (fun _ _ => ?_)
  refine answers_bind _ _ (answers_tryKey data _ (by omega)) (fun _ _ => ?_)
  refine answers_bind _ _ (answers_tryKey data _ (by omega)) (fun _ _ => ?_)
  refine answers_bind _ _ (answers_tryKey data _ (by omega)) (fun _ _ => ?_)
  refine answers_guard _ _ (fun _ => ?_)
  exact answers_pure _

end Venues

section Coverage

open Decoded Account PoolHydrator

theorem covers_decodeLayouts (data : Account) (long : 752 ≤ data.length) (nonce : UInt8)
    (authority expectedVaultA expectedVaultB : Pubkey) (layouts : List RaydiumAmmLayout)
    (known : ∀ layout ∈ layouts, layout ∈ raydiumAmmLayouts) :
    decodeLayouts (data.take 752) nonce authority expectedVaultA expectedVaultB layouts =
      decodeLayouts data nonce authority expectedVaultA expectedVaultB layouts := by
  induction layouts with
  | nil => rfl
  | cons layout rest ih =>
      obtain ⟨coin, pc, orders, targets, market, program⟩ :=
        raydiumAmmLayouts_inside layout (known layout List.mem_cons_self)
      have here : decodeLayout (data.take 752) nonce authority expectedVaultA expectedVaultB
          layout = decodeLayout data nonce authority expectedVaultA expectedVaultB layout := by
        simp (disch := omega) only [decodeLayout, sliceKey_take]
      have later := ih (fun other member => known other (List.mem_cons_of_mem _ member))
      simp only [decodeLayouts, here, later]

theorem covers_decodeRaydiumAmm (pda : Pda) (dexProgram expectedVaultA expectedVaultB : Pubkey) :
    Covers 752 (fun data => decodeRaydiumAmm pda data dexProgram expectedVaultA
      expectedVaultB) := by
  intro data long
  have short : ¬ data.length < 752 := by omega
  have layouts := fun nonce authority => covers_decodeLayouts data long nonce authority
    expectedVaultA expectedVaultB raydiumAmmLayouts (fun _ member => member)
  simp (disch := omega) only [decodeRaydiumAmm, length_take_guard, getElem?_take_guard, layouts,
    short, if_false, lt_irrefl]

theorem covers_decodeSerumMarket (pda : Pda) (marketId marketProgram : Pubkey) :
    Covers 388 (fun data => decodeSerumMarket pda data marketId marketProgram) := by
  intro data long
  have short : ¬ data.length < 388 := by omega
  have padded : paddedMarketLen = 388 := rfl
  simp (disch := omega) only [decodeSerumMarket, padded, length_take_guard, slice_take,
    sliceKey_take, short, if_false, lt_irrefl]

theorem covers_decodeLbPair : Covers 712 Meteora.decodeLbPair := by
  intro data long
  have short : ¬ data.length < 712 := by omega
  have bitmap : Meteora.readU64Array (data.take 712) 16 584 = Meteora.readU64Array data 16 584 := by
    rw [Meteora.readU64Array, Meteora.readU64Array]
    apply mapM_congr
    intro idx member
    have inside := List.mem_range.mp member
    exact readNat_take data 712 _ 8 (by omega) long
  simp (disch := omega) only [Meteora.decodeLbPair, length_take_guard, slice_take, readNat_take,
    readPubkey_take, getElem?_take_guard, bitmap, short, if_false, lt_irrefl]

theorem covers_decodeBinArray (expectedLbPair : Pubkey) :
    Covers 10144 (fun data => Meteora.decodeBinArray data expectedLbPair) := by
  intro data long
  have short : ¬ data.length < 10144 := by omega
  have bins : (List.range 70).mapM (fun place =>
        Meteora.decodeBin (data.take 10144) (56 + place * 144)) =
      (List.range 70).mapM (fun place => Meteora.decodeBin data (56 + place * 144)) := by
    apply mapM_congr
    intro place member
    have inside := List.mem_range.mp member
    simp (disch := omega) only [Meteora.decodeBin, readNat_take]
  simp (disch := omega) only [Meteora.decodeBinArray, length_take_guard, slice_take, readNat_take,
    readPubkey_take, bins, short, if_false, lt_irrefl]

theorem covers_decodeSaberPool : Covers 348 Saber.decodeSaberPool := by
  intro data long
  have short : ¬ data.length < 348 := by omega
  simp (disch := omega) only [Saber.decodeSaberPool, length_take_guard, index_take, sliceU64_take,
    tryKey_take, short, if_false, lt_irrefl]

theorem covers_decodeFluxbeamPool : Covers 389 Fluxbeam.decodeFluxbeamPool := by
  intro data long
  have short : ¬ data.length < 389 := by omega
  simp (disch := omega) only [Fluxbeam.decodeFluxbeamPool, length_take_guard, sliceU64_take,
    tryKey_take, short, if_false, lt_irrefl]

theorem covers_decodeCpmmPool : Covers 381 RaydiumCpmm.decodeCpmmPool := by
  intro data long
  have short : ¬ data.length < 381 := by omega
  simp (disch := omega) only [RaydiumCpmm.decodeCpmmPool, length_take_guard, index_take,
    tryKey_take, short, if_false, lt_irrefl]

end Coverage

open PoolHydrator

/-- Every decoder ends with a value or a refusal on the bytes given, whatever it is
asked to compare them with. -/
structure DecodersAnswer (pda : Pda) (data : Account) : Prop where
  raydiumAmm : ∀ dexProgram expectedVaultA expectedVaultB,
    (decodeRaydiumAmm pda data dexProgram expectedVaultA expectedVaultB).Answers
  serumMarket : ∀ marketId marketProgram,
    (decodeSerumMarket pda data marketId marketProgram).Answers
  orcaWhirlpool : (decodeOrcaWhirlpool data).Answers
  tickArray : ∀ whirlpool, (Orca.decodeTickArray data whirlpool).Answers
  meteoraDlmm : (decodeMeteoraDlmm data).Answers
  binArray : ∀ lbPair, (Meteora.decodeBinArray data lbPair).Answers
  saber : (Saber.decodeSaberPool data).Answers
  fluxbeam : (Fluxbeam.decodeFluxbeamPool data).Answers
  cpmm : (RaydiumCpmm.decodeCpmmPool data).Answers

/-- Only the guard of the whirlpool decoder is too low: between 237 and 244 bytes it
lets pass what its last key does not fit in. -/
theorem decodersAnswer_iff (pda : Pda) (data : Account) :
    DecodersAnswer pda data ↔ data.length < 237 ∨ 245 ≤ data.length := by
  constructor
  · intro answers
    exact (answers_decodeOrcaWhirlpool_iff data).mp answers.orcaWhirlpool
  · intro bounds
    exact {
      raydiumAmm := answers_decodeRaydiumAmm pda data
      serumMarket := answers_decodeSerumMarket pda data
      orcaWhirlpool := (answers_decodeOrcaWhirlpool_iff data).mpr bounds
      tickArray := Orca.answers_decodeTickArray data
      meteoraDlmm := Decoded.answers_bind _ _ (Meteora.answers_decodeLbPair data)
        (fun _ _ => Decoded.answers_pure _)
      binArray := Meteora.answers_decodeBinArray data
      saber := Saber.answers_decodeSaberPool data
      fluxbeam := Fluxbeam.answers_decodeFluxbeamPool data
      cpmm := RaydiumCpmm.answers_decodeCpmmPool data }

/-- The decoders answer on every account but a whirlpool of 237 to 244 bytes, and
each other length asked for covers every offset read at a fixed place. -/
theorem decoders_total_iff (pda : Pda) :
    (∀ data : Account, DecodersAnswer pda data ↔ data.length < 237 ∨ 245 ≤ data.length) ∧
      (∀ dexProgram vaultA vaultB,
        Covers 752 (fun data => decodeRaydiumAmm pda data dexProgram vaultA vaultB)) ∧
      (∀ marketId marketProgram,
        Covers 388 (fun data => decodeSerumMarket pda data marketId marketProgram)) ∧
      Covers 712 Meteora.decodeLbPair ∧
      (∀ lbPair, Covers 10144 (fun data => Meteora.decodeBinArray data lbPair)) ∧
      Covers 348 Saber.decodeSaberPool ∧ Covers 389 Fluxbeam.decodeFluxbeamPool ∧
      Covers 381 RaydiumCpmm.decodeCpmmPool :=
  ⟨decodersAnswer_iff pda, covers_decodeRaydiumAmm pda, covers_decodeSerumMarket pda,
    covers_decodeLbPair, covers_decodeBinArray, covers_decodeSaberPool,
    covers_decodeFluxbeamPool, covers_decodeCpmmPool⟩

theorem whirlpool_237_panics : ¬ (decodeOrcaWhirlpool (List.replicate 237 0)).Answers := by
  rw [answers_decodeOrcaWhirlpool_iff, List.length_replicate]
  omega

end Helios
