import Helios.MerkleTree

/-! The FEC sets an honest leader makes, and the parts of one that arrive. -/

namespace Helios

open Machine

/-- What stands behind the bytes that are hashed to a leaf. -/
def proofAndSignatureSize (variant : RecoveryVariant) : Nat :=
  variant.proofSize * merkleProofEntrySize + (if variant.resigned then signatureSize else 0)

def proofStart (variant : RecoveryVariant) : Nat :=
  variant.payloadSize - proofAndSignatureSize variant

/-- The end of headers and data or code. -/
def capacityEnd (variant : RecoveryVariant) : Nat := variant.payloadSize - trailerSize variant

theorem trailerSize_eq (variant : RecoveryVariant) :
    trailerSize variant =
      (if variant.chained then merkleRootSize else 0) + proofAndSignatureSize variant := by
  rw [trailerSize, proofAndSignatureSize, Nat.add_assoc]

theorem trailerSize_le (variant : RecoveryVariant) (small : variant.proofSize ≤ 8) :
    trailerSize variant ≤ 256 := by
  rw [trailerSize, merkleProofEntrySize, merkleRootSize, signatureSize]
  split
  · split
    · omega
    · omega
  · split
    · omega
    · omega

theorem merkleDataCapacity_eq (variant : RecoveryVariant) (small : variant.proofSize ≤ 8) :
    (merkleDataCapacity variant).map (legacyDataHeadersSize + ·) =
      .ok (merkleDataPayloadSize - trailerSize variant) := by
  have bound := trailerSize_le variant small
  have fits : legacyDataHeadersSize + trailerSize variant ≤ merkleDataPayloadSize := by
    rw [legacyDataHeadersSize, merkleDataPayloadSize]
    omega
  rw [merkleDataCapacity, checkedSub, if_pos fits]
  change Except.ok (legacyDataHeadersSize +
    (merkleDataPayloadSize - (legacyDataHeadersSize + trailerSize variant))) = _
  congr 1
  omega

theorem merkleCodeCapacity_eq (variant : RecoveryVariant) (small : variant.proofSize ≤ 8) :
    (merkleCodeCapacity variant).map (legacyCodingHeadersSize + ·) =
      .ok (legacyPayloadSize - trailerSize variant) := by
  have bound := trailerSize_le variant small
  have fits : legacyCodingHeadersSize + trailerSize variant ≤ legacyPayloadSize := by
    rw [legacyCodingHeadersSize, legacyPayloadSize]
    omega
  rw [merkleCodeCapacity, checkedSub, if_pos fits]
  change Except.ok (legacyCodingHeadersSize +
    (legacyPayloadSize - (legacyCodingHeadersSize + trailerSize variant))) = _
  congr 1
  omega

theorem chainedRootOffset_eq (variant : RecoveryVariant) (merkle : variant.isMerkle = true)
    (small : variant.proofSize ≤ 8) : chainedRootOffset variant = .ok (capacityEnd variant) := by
  cases variant with
  | legacyData => cases merkle
  | legacyCode => cases merkle
  | merkleData proofSize chained resigned =>
      exact merkleDataCapacity_eq _ small
  | merkleCode proofSize chained resigned =>
      exact merkleCodeCapacity_eq _ small

theorem le_payloadSize (variant : RecoveryVariant) :
    merkleDataPayloadSize ≤ variant.payloadSize := by
  cases variant with
  | legacyData => decide
  | legacyCode => decide
  | merkleData => exact Nat.le_refl _
  | merkleCode =>
      change merkleDataPayloadSize ≤ legacyPayloadSize
      decide

theorem proofStart_eq (variant : RecoveryVariant) (small : variant.proofSize ≤ 8) :
    capacityEnd variant + (if variant.chained then merkleRootSize else 0) =
      proofStart variant := by
  have bound := trailerSize_le variant small
  have size := le_payloadSize variant
  have split := trailerSize_eq variant
  rw [merkleDataPayloadSize] at size
  rw [capacityEnd, proofStart]
  omega

theorem merkleProofOffset_eq (variant : RecoveryVariant) (merkle : variant.isMerkle = true)
    (small : variant.proofSize ≤ 8) : merkleProofOffset variant = .ok (proofStart variant) := by
  rw [merkleProofOffset, chainedRootOffset_eq variant merkle small]
  exact congrArg Except.ok (proofStart_eq variant small)

def variantAt (numData proofSize : Nat) (chained resigned : Bool) (place : Nat) :
    RecoveryVariant :=
  if place < numData then .merkleData proofSize chained resigned
  else .merkleCode proofSize chained resigned

/-- The bytes of a payload that are hashed to its leaf. -/
def leafString (payload : Bytes) (variant : RecoveryVariant) : Bytes :=
  (payload.take (proofStart variant)).drop signatureSize

def leafNode (ledger : Ledger) (payload : Bytes) (variant : RecoveryVariant) : Hash :=
  ledger.hashv [merkleHashPrefixLeaf, leafString payload variant]

/-- The shreds of an honest Merkle FEC set, by their place in the erasure batch. -/
structure HonestFecSet (ledger : Ledger) where
  numData : Nat
  numCoding : Nat
  proofSize : Nat
  chained : Bool
  resigned : Bool
  slot : Nat
  version : Nat
  fecSetIndex : Nat
  firstCodingIndex : Nat
  signature : Bytes
  chainedMerkleRoot : Bytes
  shred : Nat → Shred
  someData : 0 < numData
  someCoding : 0 < numCoding
  fits : numData + numCoding ≤ 256
  depth : proofSize = Nat.clog 2 (numData + numCoding)
  resignedChained : resigned = true → chained = true
  variants : ∀ place < numData + numCoding, RecoveryVariant.fromPayload (shred place).payload =
    some (variantAt numData proofSize chained resigned place)
  kind : ∀ place < numData + numCoding, (shred place).isData = decide (place < numData)
  sameSlot : ∀ place < numData + numCoding, (shred place).slot = slot
  dataIndex : ∀ place < numData, (shred place).index = fecSetIndex + place
  codeIndex : ∀ position < numCoding, (shred (numData + position)).index =
    firstCodingIndex + position
  signed : ∀ place < numData + numCoding,
    slice (shred place).payload 0 signatureSize = some signature
  slotHeader : ∀ place < numData + numCoding, parseU64 (shred place).payload slotOffset = .ok slot
  versionHeader : ∀ place < numData + numCoding,
    parseU16 (shred place).payload versionOffset = .ok version
  fecSetHeader : ∀ place < numData + numCoding,
    parseU32 (shred place).payload fecSetIndexOffset = .ok fecSetIndex
  indexHeader : ∀ place < numData + numCoding,
    parseU32 (shred place).payload indexOffset = .ok (shred place).index
  numDataHeader : ∀ position < numCoding,
    parseU16 (shred (numData + position)).payload codingNumDataOffset = .ok numData
  numCodingHeader : ∀ position < numCoding,
    parseU16 (shred (numData + position)).payload codingNumCodingOffset = .ok numCoding
  positionHeader : ∀ position < numCoding,
    parseU16 (shred (numData + position)).payload codingPositionOffset = .ok position
  chainedRoot : chained = true → ∀ place < numData + numCoding,
    extractChainedMerkleRoot (shred place).payload
      (variantAt numData proofSize chained resigned place) = some chainedMerkleRoot
  proven : ∀ place < numData + numCoding,
    slice (shred place).payload (proofStart (variantAt numData proofSize chained resigned place))
        (proofStart (variantAt numData proofSize chained resigned place) +
          proofSize * merkleProofEntrySize) =
      some (MerkleTree.proof ledger ((List.range (numData + numCoding)).map (fun leaf =>
        leafNode ledger (shred leaf).payload
          (variantAt numData proofSize chained resigned leaf))) place).flatten

namespace HonestFecSet

variable {ledger : Ledger} (honest : HonestFecSet ledger)

def total : Nat := honest.numData + honest.numCoding

def variant (place : Nat) : RecoveryVariant :=
  variantAt honest.numData honest.proofSize honest.chained honest.resigned place

def payload (place : Nat) : Bytes := (honest.shred place).payload

/-- The shard the erasure code covers. -/
def shard (place : Nat) : Bytes :=
  ((honest.payload place).take (proofStart (honest.variant place))).drop
    (if place < honest.numData then signatureSize else legacyCodingHeadersSize)

def nodes : List Hash :=
  (List.range honest.total).map (fun place => leafNode ledger (honest.payload place)
    (honest.variant place))

/-- Reed-Solomon gives all shards back from any `numData` of them. -/
def Restores : Prop :=
  ledger.newReedSolomon honest.numData honest.numCoding = .ok () ∧
  ∀ shards : List (Option Bytes), shards.length = honest.total →
    (∀ place < honest.total, ∀ shard, shards[place]? = some (some shard) →
      shard = honest.shard place) →
    honest.numData ≤ shards.countP Option.isSome →
    ledger.reconstruct honest.numData honest.numCoding shards =
      .ok ((List.range honest.total).map (fun place => some (honest.shard place)))

/-- The parser reads signature, headers and data; what stands behind them may differ. -/
def Parses : Prop :=
  ∀ place < honest.numData, ∀ payload : Bytes, payload.length = merkleDataPayloadSize →
    payload.take (capacityEnd (honest.variant place)) =
      (honest.payload place).take (capacityEnd (honest.variant place)) →
    ∃ shred, ledger.newFromSerializedShred payload = .ok shred ∧ shred.payload = payload ∧
      shred.isData = true ∧ shred.slot = honest.slot ∧
      shred.index = (honest.shred place).index

/-- A FEC set that holds shreds of the honest set and nothing else. -/
structure Holds (set : FecSet) : Prop where
  data : ∀ index shred, HashMap.get set.dataShreds index = some shred →
    ∃ place < honest.numData, shred = honest.shred place ∧ index = shred.index
  coding : ∀ index shred, HashMap.get set.codingShreds index = some shred →
    ∃ position < honest.numCoding, shred = honest.shred (honest.numData + position) ∧
      index = shred.index
  recorded : set.codingMeta =
    some ⟨honest.numData, honest.numCoding, honest.firstCodingIndex⟩

theorem proofSize_le : honest.proofSize ≤ 8 := by
  have larger := Nat.clog_mono_right 2 honest.fits
  have bound : Nat.clog 2 256 = 8 := by
    rw [show (256 : Nat) = 2 ^ 8 by norm_num, Nat.clog_pow 2 8 (by norm_num)]
  rw [honest.depth]
  omega

theorem variant_data (place : Nat) (data : place < honest.numData) :
    honest.variant place = .merkleData honest.proofSize honest.chained honest.resigned :=
  if_pos data

theorem variant_code (position : Nat) :
    honest.variant (honest.numData + position) =
      .merkleCode honest.proofSize honest.chained honest.resigned :=
  if_neg (by omega)

theorem variant_merkle (place : Nat) : (honest.variant place).isMerkle = true := by
  unfold variant variantAt
  split
  · rfl
  · rfl

theorem variant_proofSize (place : Nat) :
    (honest.variant place).proofSize = honest.proofSize := by
  unfold variant variantAt
  split
  · rfl
  · rfl

theorem variant_small (place : Nat) : (honest.variant place).proofSize ≤ 8 := by
  rw [variant_proofSize]
  exact honest.proofSize_le

theorem length_payload (place : Nat) (inside : place < honest.total) :
    (honest.payload place).length = (honest.variant place).payloadSize :=
  (honest.shred place).sized _ (honest.variants place inside)

theorem length_data (place : Nat) (data : place < honest.numData) :
    (honest.payload place).length = merkleDataPayloadSize := by
  rw [length_payload honest place (by unfold total; omega), variant_data honest place data]
  rfl

/-- What stands behind the shards is the same for data and code. -/
def trailing : Nat :=
  honest.proofSize * merkleProofEntrySize + (if honest.resigned then signatureSize else 0)

theorem proofAndSignatureSize_eq (place : Nat) :
    proofAndSignatureSize (honest.variant place) = honest.trailing := by
  unfold variant variantAt
  split
  · rfl
  · rfl

theorem trailing_le : honest.trailing ≤ 224 := by
  have small := honest.proofSize_le
  rw [trailing, merkleProofEntrySize, signatureSize]
  split
  · omega
  · omega

theorem length_shard (place : Nat) (inside : place < honest.total) :
    (honest.shard place).length = 1139 - honest.trailing := by
  have bound := honest.trailing_le
  have whole := honest.length_payload place inside
  rw [shard, List.length_drop, List.length_take, proofStart, proofAndSignatureSize_eq, whole]
  by_cases data : place < honest.numData
  · rw [if_pos data, variant_data honest place data, RecoveryVariant.payloadSize,
      merkleDataPayloadSize, signatureSize]
    omega
  · have code : honest.variant place =
        .merkleCode honest.proofSize honest.chained honest.resigned := if_neg data
    have size : (honest.variant place).payloadSize = 1228 := by
      rw [code]
      rfl
    rw [if_neg data, size, legacyCodingHeadersSize]
    omega

theorem erasureShardIndex_shred (place : Nat) (inside : place < honest.total) :
    erasureShardIndex (honest.payload place) = some place := by
  rw [erasureShardIndex, payload, honest.variants place inside]
  by_cases data : place < honest.numData
  · have isData : (variantAt honest.numData honest.proofSize honest.chained honest.resigned
        place).isData = true := by
      rw [variantAt, if_pos data]
      rfl
    simp only [isData, if_true]
    rw [honest.indexHeader place inside, honest.fecSetHeader place inside,
      honest.dataIndex place data]
    simp [checkedSub]
  · have isCode : (variantAt honest.numData honest.proofSize honest.chained honest.resigned
        place).isData = false := by
      rw [variantAt, if_neg data]
      rfl
    obtain ⟨position, rfl⟩ : ∃ position, place = honest.numData + position :=
      ⟨place - honest.numData, by omega⟩
    have within : position < honest.numCoding := by
      unfold total at inside
      omega
    simp only [isCode, Bool.false_eq_true, if_false]
    rw [honest.numDataHeader position within, honest.positionHeader position within]

theorem erasureShardBytes_shred (place : Nat) (inside : place < honest.total) :
    erasureShardBytes (honest.payload place) = .ok (honest.shard place) := by
  have offset := merkleProofOffset_eq (honest.variant place) (honest.variant_merkle place)
    (honest.variant_small place)
  rw [erasureShardBytes, payload, honest.variants place inside, shard, payload]
  by_cases data : place < honest.numData
  · rw [variant_data honest place data] at offset ⊢
    rw [variantAt, if_pos data, if_pos data]
    simp only [offset]
    rfl
  · have code : honest.variant place =
        .merkleCode honest.proofSize honest.chained honest.resigned := if_neg data
    rw [code] at offset ⊢
    rw [variantAt, if_neg data, if_neg data]
    simp only [offset]
    rfl

/-- No two places hold the same shred. -/
theorem shred_injective (first second : Nat) (firstIn : first < honest.total)
    (secondIn : second < honest.total) (same : honest.shred first = honest.shred second) :
    first = second := by
  have places := honest.erasureShardIndex_shred first firstIn
  rw [payload, same] at places
  exact (Option.some.inj ((honest.erasureShardIndex_shred second secondIn).symm.trans places)).symm

end HonestFecSet

end Helios
