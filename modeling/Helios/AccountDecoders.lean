import Helios.PoolState

/-! The decoders of the accounts the hydrator asks for. A slice that reaches past
the end stops the process; `get` and every other failed test only refuse the
account. -/

namespace Helios

open Machine

/-- The data of an account. -/
abbrev Account := List UInt8

/-- How the decoding of an account ends. -/
inductive Decoded (α : Type) where
  | panicked
  | refused
  | value (decoded : α)
  deriving DecidableEq

namespace Decoded

def bind {α β : Type} (first : Decoded α) (next : α → Decoded β) : Decoded β :=
  match first with
  | panicked => panicked
  | refused => refused
  | value decoded => next decoded

instance : Monad Decoded where
  pure := value
  bind := bind

/-- `?` on an option. -/
def ofOption {α : Type} : Option α → Decoded α
  | none => refused
  | some decoded => value decoded

def toOption {α : Type} : Decoded α → Option α
  | value decoded => some decoded
  | _ => none

theorem value_bind {α β : Type} (decoded : α) (next : α → Decoded β) :
    (value decoded >>= next) = next decoded := rfl

theorem bind_eq_value_iff {α β : Type} (first : Decoded α) (next : α → Decoded β) (result : β) :
    (first >>= next) = value result ↔ ∃ decoded, first = value decoded ∧ next decoded = value result := by
  cases first with
  | panicked =>
      constructor
      · intro same
        cases same
      · intro ⟨_, same, _⟩
        cases same
  | refused =>
      constructor
      · intro same
        cases same
      · intro ⟨_, same, _⟩
        cases same
  | value decoded =>
      constructor
      · intro same
        exact ⟨decoded, rfl, same⟩
      · intro ⟨other, same, later⟩
        cases same
        exact later

theorem toOption_eq_some_iff {α : Type} (result : Decoded α) (decoded : α) :
    result.toOption = some decoded ↔ result = value decoded := by
  cases result with
  | panicked => simp [toOption]
  | refused => simp [toOption]
  | value held => simp [toOption]

end Decoded

/-- The derivation of program addresses: `create_program_address`, which fails on
the curve, and `find_program_address`, which looks for a bump off it. -/
structure Pda where
  create : List (List UInt8) → Pubkey → Option Pubkey
  find : List (List UInt8) → Pubkey → Pubkey

def utf8 (text : String) : List UInt8 := text.toUTF8.toList

namespace Account

variable (data : Account)

/-- `data.get(offset..offset + width)`. -/
def get (offset width : Nat) : Option (List UInt8) :=
  if offset + width ≤ data.length then some ((data.drop offset).take width) else none

/-- `&data[offset..offset + width]`. -/
def slice (offset width : Nat) : Decoded (List UInt8) :=
  match Account.get data offset width with
  | some bytes => .value bytes
  | none => .panicked

end Account

def pubkeyFromBytes (bytes : List UInt8) : Option Pubkey :=
  if bytes.length ≠ 32 then none else some (Pubkey.ofBytes bytes)

namespace PoolHydrator

open Decoded

def sliceKey (data : Account) (offset : Nat) : Decoded Pubkey := do
  let bytes ← Account.slice data offset 32
  ofOption (pubkeyFromBytes bytes)

/-! Raydium pools and their markets. -/

structure RaydiumAmmLayout where
  coinVaultOffset : Nat
  pcVaultOffset : Nat
  openOrdersOffset : Nat
  marketOffset : Nat
  marketProgramOffset : Nat
  targetOrdersOffset : Nat

def raydiumAmmLayouts : List RaydiumAmmLayout :=
  [⟨336, 368, 496, 528, 560, 592⟩, ⟨224, 256, 160, 320, 352, 384⟩]

/-- Equal pairs, in either order. -/
def samePubkeySet (actual expected : Pubkey × Pubkey) : Bool :=
  decide (actual.1 = expected.1 ∧ actual.2 = expected.2) ||
    decide (actual.1 = expected.2 ∧ actual.2 = expected.1)

/-- One layout: refused when both expected vaults are real and differ from the two
read, whatever their order. -/
def decodeLayout (data : Account) (nonce : UInt8) (authority : Pubkey)
    (expectedVaultA expectedVaultB : Pubkey) (layout : RaydiumAmmLayout) :
    Decoded (Option RaydiumMetadata) := do
  let vaultA ← sliceKey data layout.coinVaultOffset
  let vaultB ← sliceKey data layout.pcVaultOffset
  if expectedVaultA ≠ default ∧ expectedVaultB ≠ default ∧
      samePubkeySet (vaultA, vaultB) (expectedVaultA, expectedVaultB) = false then
    return none
  else do
    let openOrders ← sliceKey data layout.openOrdersOffset
    let targetOrders ← sliceKey data layout.targetOrdersOffset
    let marketId ← sliceKey data layout.marketOffset
    let marketProgram ← sliceKey data layout.marketProgramOffset
    return some {
      authority, nonce, openOrders, targetOrders, vaultA, vaultB, marketId, marketProgram
      marketEventQueue := default
      marketBids := default
      marketAsks := default
      marketBaseVault := default
      marketQuoteVault := default
      marketVaultSigner := default }

/-- What a decoded pool account says for sure: its two vaults, at the places of the
layout, and nothing about its market. -/
structure FromLayout (data : Account) (expectedVaultA expectedVaultB : Pubkey)
    (layout : RaydiumAmmLayout) (metadata : RaydiumMetadata) : Prop where
  coinVault : sliceKey data layout.coinVaultOffset = .value metadata.vaultA
  pcVault : sliceKey data layout.pcVaultOffset = .value metadata.vaultB
  expected : expectedVaultA = default ∨ expectedVaultB = default ∨
    samePubkeySet (metadata.vaultA, metadata.vaultB) (expectedVaultA, expectedVaultB) = true
  noMarket : metadata.marketBids = default

theorem decodeLayout_some (data : Account) (nonce : UInt8)
    (authority expectedVaultA expectedVaultB : Pubkey) (layout : RaydiumAmmLayout)
    (metadata : RaydiumMetadata)
    (decoded : decodeLayout data nonce authority expectedVaultA expectedVaultB layout =
      .value (some metadata)) : FromLayout data expectedVaultA expectedVaultB layout metadata := by
  simp only [decodeLayout, bind_eq_value_iff] at decoded
  rcases decoded with ⟨vaultA, coin, vaultB, pc, rest⟩
  split at rest
  · cases rest
  · next passed =>
      simp only [bind_eq_value_iff] at rest
      rcases rest with ⟨_, _, _, _, _, _, _, _, same⟩
      cases same
      refine ⟨coin, pc, ?_, rfl⟩
      by_cases realA : expectedVaultA = default
      · exact Or.inl realA
      · by_cases realB : expectedVaultB = default
        · exact Or.inr (Or.inl realB)
        · refine Or.inr (Or.inr ?_)
          cases equal : samePubkeySet (vaultA, vaultB) (expectedVaultA, expectedVaultB) with
          | true => rfl
          | false => exact absurd ⟨realA, realB, equal⟩ passed

/-- The first layout that is not passed over. -/
def decodeLayouts (data : Account) (nonce : UInt8) (authority : Pubkey)
    (expectedVaultA expectedVaultB : Pubkey) : List RaydiumAmmLayout → Decoded RaydiumMetadata
  | [] => refused
  | layout :: rest => do
      match ← decodeLayout data nonce authority expectedVaultA expectedVaultB layout with
      | some metadata => return metadata
      | none => decodeLayouts data nonce authority expectedVaultA expectedVaultB rest

def decodeRaydiumAmm (pda : Pda) (data : Account) (dexProgram : Pubkey)
    (expectedVaultA expectedVaultB : Pubkey) : Decoded RaydiumMetadata :=
  if data.length < 752 then refused
  else do
    let nonce ← ofOption data[8]?
    let authority ← ofOption (pda.create [utf8 "amm authority", [nonce]] dexProgram)
    decodeLayouts data nonce authority expectedVaultA expectedVaultB raydiumAmmLayouts

theorem decodeLayouts_value (data : Account) (nonce : UInt8)
    (authority expectedVaultA expectedVaultB : Pubkey) (layouts : List RaydiumAmmLayout)
    (metadata : RaydiumMetadata)
    (decoded : decodeLayouts data nonce authority expectedVaultA expectedVaultB layouts =
      .value metadata) :
    ∃ layout ∈ layouts, FromLayout data expectedVaultA expectedVaultB layout metadata := by
  induction layouts with
  | nil => cases decoded
  | cons layout rest ih =>
      rcases (bind_eq_value_iff _ _ _).mp decoded with ⟨found, read, next⟩
      cases found with
      | none =>
          rcases ih next with ⟨other, member, here⟩
          exact ⟨other, List.mem_cons_of_mem _ member, here⟩
      | some held =>
          cases next
          exact ⟨layout, List.mem_cons_self,
            decodeLayout_some data nonce authority expectedVaultA expectedVaultB layout metadata read⟩

theorem decodeRaydiumAmm_value (pda : Pda) (data : Account)
    (dexProgram expectedVaultA expectedVaultB : Pubkey) (metadata : RaydiumMetadata)
    (decoded : decodeRaydiumAmm pda data dexProgram expectedVaultA expectedVaultB =
      .value metadata) :
    ∃ layout ∈ raydiumAmmLayouts, FromLayout data expectedVaultA expectedVaultB layout metadata := by
  rw [decodeRaydiumAmm] at decoded
  split at decoded
  · cases decoded
  · simp only [bind_eq_value_iff] at decoded
    rcases decoded with ⟨nonce, _, authority, _, layouts⟩
    exact decodeLayouts_value data nonce authority expectedVaultA expectedVaultB _ metadata layouts

/-- The tuple `decode_serum_market` returns. -/
structure SerumMarket where
  marketBids : Pubkey
  marketAsks : Pubkey
  marketEventQueue : Pubkey
  marketBaseVault : Pubkey
  marketQuoteVault : Pubkey
  marketVaultSigner : Pubkey
  deriving DecidableEq

def paddedMarketLen : Nat := 5 + 47 * 8 + 7

def decodeSerumMarket (pda : Pda) (data : Account) (marketId marketProgram : Pubkey) :
    Decoded SerumMarket :=
  if data.length < paddedMarketLen then refused
  else do
    let head ← Account.slice data 0 5
    if head ≠ utf8 "serum" then refused
    else do
      let tail ← Account.slice data (paddedMarketLen - 7) 7
      if tail ≠ utf8 "padding" then refused
      else do
        let vaultSignerNonce ← Account.slice data (5 + 5 * 8) 8
        let marketEventQueue ← sliceKey data (5 + 31 * 8)
        let marketBids ← sliceKey data (5 + 35 * 8)
        let marketAsks ← sliceKey data (5 + 39 * 8)
        let marketBaseVault ← sliceKey data (5 + 14 * 8)
        let marketQuoteVault ← sliceKey data (5 + 20 * 8)
        let marketVaultSigner ← ofOption
          (pda.create [marketId.toBytes, vaultSignerNonce] marketProgram)
        return {
          marketBids, marketAsks, marketEventQueue, marketBaseVault, marketQuoteVault
          marketVaultSigner }

/-! Orca pools. -/

/-- The last key ends at 245, eight bytes behind the length asked for. -/
def decodeOrcaWhirlpool (data : Account) : Decoded OrcaMetadata :=
  if data.length < 237 then refused
  else do
    let tickSpacing ← Account.slice data 41 2
    let liquidity ← Account.slice data 49 16
    let sqrtPrice ← Account.slice data 65 16
    let tickCurrentIndex ← Account.slice data 81 4
    let tokenVaultA ← sliceKey data 133
    let tokenVaultB ← sliceKey data 213
    return {
      tickSpacing := ofLeBytes tickSpacing
      liquidity := ofLeBytes liquidity
      sqrtPrice := ofLeBytes sqrtPrice
      tickCurrentIndex := wrapI32 (ofLeBytes tickCurrentIndex)
      tokenVaultA, tokenVaultB
      tickArrays := HashMap.empty }

def deriveOrcaTickArrayPda (pda : Pda) (whirlpool : Pubkey) (startTickIndex : Int) : Pubkey :=
  pda.find [utf8 "tick_array", whirlpool.toBytes, utf8 (toString startTickIndex)]
    DexPrograms.orcaWhirlpool

end PoolHydrator

namespace Orca

open Decoded

/-- `i128::from_le_bytes`. -/
def i128OfLeBytes (bytes : List UInt8) : Int := (ofLeBytes bytes : Int).bmod (2 ^ 128)

def tickArrayStartIndexes (tickCurrentIndex : Int) (tickSpacing : Nat) (radius : Nat) : List Int :=
  let current := tickArrayStartIndex tickCurrentIndex tickSpacing
  (List.range (2 * radius + 1)).map (fun step =>
    wrapI32 (current + wrapI32 (((step : Int) - radius) * tickArrayOffset tickSpacing)))

def decodeFixedTickArray (data : Account) (whirlpool : Pubkey) : Decoded OrcaTickArray :=
  if data.length ≠ 9988 then refused
  else do
    let startTickIndex ← ofOption (Account.get data 8 4)
    let tickData ← ofOption (Account.get data 12 (113 * 88))
    let owner ← ofOption ((Account.get data (data.length - 32) 32).bind pubkeyFromBytes)
    if owner ≠ whirlpool then refused
    else do
      let ticks ← (List.range 88).mapM (fun idx => do
        let bytes ← ofOption (Account.get tickData (idx * 113) 113)
        let initialized ← ofOption bytes.head?
        let liquidityNet ← ofOption (Account.get bytes 1 16)
        return ⟨decide (initialized ≠ 0), i128OfLeBytes liquidityNet⟩)
      return ⟨wrapI32 (ofLeBytes startTickIndex), ticks⟩

/-- The ticks from the cursor on: one byte for a tick that is not initialized, 97
for one that is. -/
def decodeDynamicTicks (data : Account) : Nat → Nat → Decoded (List OrcaTick)
  | _, 0 => value []
  | cursor, count + 1 => do
      let tag ← ofOption data[cursor]?
      if tag = 0 then do
        let rest ← decodeDynamicTicks data (cursor + 1) count
        return ⟨false, 0⟩ :: rest
      else if tag = 1 then do
        let bytes ← ofOption (Account.get data (cursor + 1) 96)
        let liquidityNet ← ofOption (Account.get bytes 0 16)
        let rest ← decodeDynamicTicks data (cursor + 97) count
        return ⟨true, i128OfLeBytes liquidityNet⟩ :: rest
      else refused

def decodeDynamicTickArray (data : Account) (whirlpool : Pubkey) : Decoded OrcaTickArray := do
  let startTickIndex ← ofOption (Account.get data 8 4)
  let owner ← ofOption ((Account.get data 12 32).bind pubkeyFromBytes)
  if owner ≠ whirlpool then refused
  else do
    let ticks ← decodeDynamicTicks data 60 88
    return ⟨wrapI32 (ofLeBytes startTickIndex), ticks⟩

def decodeTickArray (data : Account) (whirlpool : Pubkey) : Decoded OrcaTickArray :=
  if data.length = 9988 then decodeFixedTickArray data whirlpool
  else if 148 ≤ data.length ∧ data.length ≤ 10004 then decodeDynamicTickArray data whirlpool
  else refused

end Orca

namespace Meteora

open Decoded

def lbPairDiscriminator : List UInt8 := [33, 11, 49, 98, 181, 101, 177, 13]
def binArrayDiscriminator : List UInt8 := [92, 142, 92, 220, 5, 148, 70, 181]
def binArrayBitmapSize : Int := 512
def maxCachedBinArraysPerSide : Nat := 6

/-- `read_u16` and its like: a number of some width. -/
def readNat (data : Account) (offset width : Nat) : Decoded Nat := do
  let bytes ← ofOption (Account.get data offset width)
  return ofLeBytes bytes

def readPubkey (data : Account) (offset : Nat) : Decoded Pubkey := do
  let bytes ← ofOption (Account.get data offset 32)
  return Pubkey.ofBytes bytes

def readU64Array (data : Account) (count offset : Nat) : Decoded (List Nat) :=
  (List.range count).mapM (fun idx => readNat data (offset + idx * 8) 8)

structure MeteoraDecodedLbPair where
  activeId : Int
  binStep : Nat
  reserveX : Pubkey
  reserveY : Pubkey
  parameters : MeteoraStaticParameters
  vParameters : MeteoraVariableParameters
  binArrayBitmap : List Nat

/-- The mints and the parameters no quote uses are left out; the length asked for
covers them. -/
def decodeLbPair (data : Account) : Decoded MeteoraDecodedLbPair :=
  if data.length < 712 then refused
  else do
    let tag ← Account.slice data 0 8
    if tag ≠ lbPairDiscriminator then refused
    else do
      let baseFactor ← readNat data 8 2
      let variableFeeControl ← readNat data 16 4
      let baseFeePowerFactor ← ofOption data[34]?
      let volatilityAccumulator ← readNat data 40 4
      let activeId ← readNat data 76 4
      let binStep ← readNat data 80 2
      let reserveX ← readPubkey data 152
      let reserveY ← readPubkey data 184
      let binArrayBitmap ← readU64Array data 16 584
      return {
        activeId := wrapI32 activeId
        binStep, reserveX, reserveY
        parameters := ⟨baseFactor, variableFeeControl, baseFeePowerFactor.toNat⟩
        vParameters := ⟨volatilityAccumulator⟩
        binArrayBitmap }

def decodeBin (data : Account) (offset : Nat) : Decoded MeteoraBin := do
  let amountX ← readNat data offset 8
  let amountY ← readNat data (offset + 8) 8
  let price ← readNat data (offset + 16) 16
  return ⟨amountX, amountY, price⟩

def decodeBinArray (data : Account) (expectedLbPair : Pubkey) : Decoded MeteoraBinArray :=
  if data.length < 10144 then refused
  else do
    let tag ← Account.slice data 0 8
    if tag ≠ binArrayDiscriminator then refused
    else do
      let lbPair ← readPubkey data 24
      if lbPair ≠ expectedLbPair then refused
      else do
        let bins ← (List.range 70).mapM (fun place => decodeBin data (56 + place * 144))
        let index ← readNat data 8 8
        return ⟨wrapI64 index, bins⟩

def deriveBinArrayPda (pda : Pda) (lbPair : Pubkey) (binArrayIndex : Int) : Pubkey :=
  pda.find [utf8 "bin_array", lbPair.toBytes, leBytes 8 (binArrayIndex % 2 ^ 64).toNat]
    DexPrograms.meteoraDlmm

def bitmapHasIndex (bitmap : List Nat) (binArrayIndex : Int) : Bool :=
  if -binArrayBitmapSize ≤ binArrayIndex ∧ binArrayIndex < binArrayBitmapSize then
    let offset := (binArrayIndex + binArrayBitmapSize).toNat
    match bitmap[offset / 64]? with
    | some chunk => chunk.testBit (offset % 64)
    | none => false
  else false

/-- The search outwards from the active array. Past both ends of the bitmap it
stops, which bounds the number of steps. -/
def candidateLoop (bitmap : List Nat) (activeIndex : Int) :
    Nat → Int → Nat → Nat → List Int → List Int
  | 0, _, _, _, out => out
  | fuel + 1, distance, negativeCount, positiveCount, out =>
      if negativeCount < maxCachedBinArraysPerSide ∨ positiveCount < maxCachedBinArraysPerSide then
        let negativeIdx := activeIndex - distance
        let positiveIdx := activeIndex + distance
        let takesNegative := decide (negativeCount < maxCachedBinArraysPerSide) &&
          bitmapHasIndex bitmap negativeIdx
        let takesPositive := decide (positiveCount < maxCachedBinArraysPerSide) &&
          bitmapHasIndex bitmap positiveIdx
        let out := if takesNegative then out ++ [negativeIdx] else out
        let out := if takesPositive then out ++ [positiveIdx] else out
        if negativeIdx < -binArrayBitmapSize ∧ binArrayBitmapSize - 1 < positiveIdx then out
        else
          candidateLoop bitmap activeIndex fuel (distance + 1)
            (if takesNegative then negativeCount + 1 else negativeCount)
            (if takesPositive then positiveCount + 1 else positiveCount) out
      else out

def candidateBinArrayIndices (activeId : Int) (bitmap : List Nat) : List Int :=
  let activeIndex := binIdToBinArrayIndex activeId
  ((candidateLoop bitmap activeIndex (activeIndex.natAbs + 514) 1 0 0 [activeIndex]).mergeSort
    (fun a b => decide (a ≤ b))).dedup

end Meteora

namespace PoolHydrator

open Decoded

/-- The pool's metadata with no bin arrays yet, and the bitmap of those it has. -/
def decodeMeteoraDlmm (data : Account) : Decoded (MeteoraMetadata × List Nat) := do
  let decoded ← Meteora.decodeLbPair data
  return ({
    activeId := decoded.activeId
    binStep := decoded.binStep
    tokenVaultA := decoded.reserveX
    tokenVaultB := decoded.reserveY
    parameters := decoded.parameters
    vParameters := decoded.vParameters
    binArrays := HashMap.empty }, decoded.binArrayBitmap)

end PoolHydrator

end Helios
