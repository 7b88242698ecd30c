import Helios.MerkleRecovery

/-! When recovery from an honest Merkle FEC set succeeds. -/

namespace Helios.HonestFecSet

open Machine Fallible

variable {ledger : Ledger} (honest : HonestFecSet ledger) (set : FecSet)

theorem recoveryVariant_of_head (shred : Shred) (rest : List Shred) (place : Nat)
    (inside : place < honest.total) (shreds : set.allShreds = shred :: rest)
    (same : shred = honest.shred place) :
    set.recoveryVariant = some (honest.variant place) := by
  rw [FecSet.recoveryVariant, shreds, List.findSome?_cons, same, honest.variants place inside]
  rfl

/-- Data shreds come first, so one of them decides the variant. -/
theorem recoveryVariant_data (holds : honest.Holds set)
    (data : set.dataShreds.entries.length ≠ 0) :
    ∃ place < honest.numData, set.recoveryVariant = some (honest.variant place) := by
  cases values : HashMap.values set.dataShreds with
  | nil =>
      have empty : (HashMap.values set.dataShreds).length = 0 := by rw [values]; rfl
      rw [HashMap.values, List.length_map] at empty
      exact absurd empty data
  | cons shred rest =>
      obtain ⟨place, inside, same⟩ := honest.isData_of_values set holds shred
        (by rw [values]; exact List.mem_cons_self)
      refine ⟨place, inside, ?_⟩
      apply honest.recoveryVariant_of_head set shred (rest ++ HashMap.values set.codingShreds)
        place (by unfold total; omega) _ same
      rw [FecSet.allShreds, values, List.cons_append]

theorem recoveryVariant_code (holds : honest.Holds set)
    (noData : set.dataShreds.entries.length = 0) (coding : set.codingShreds.entries.length ≠ 0) :
    ∃ position < honest.numCoding,
      set.recoveryVariant = some (honest.variant (honest.numData + position)) := by
  have noValues : HashMap.values set.dataShreds = [] := by
    apply List.eq_nil_of_length_eq_zero
    rw [HashMap.values, List.length_map, noData]
  cases values : HashMap.values set.codingShreds with
  | nil =>
      have empty : (HashMap.values set.codingShreds).length = 0 := by rw [values]; rfl
      rw [HashMap.values, List.length_map] at empty
      exact absurd empty coding
  | cons shred rest =>
      obtain ⟨position, within, same⟩ := honest.isCode_of_values set holds shred
        (by rw [values]; exact List.mem_cons_self)
      refine ⟨position, within, ?_⟩
      apply honest.recoveryVariant_of_head set shred rest _ (by unfold total; omega) _ same
      rw [FecSet.allShreds, noValues, values, List.nil_append]

theorem proofStart_data (place : Nat) (data : place < honest.numData) :
    proofStart (honest.variant place) = 1203 - honest.trailing := by
  rw [proofStart, proofAndSignatureSize_eq, variant_data honest place data]
  rfl

theorem proofStart_code (position : Nat) :
    proofStart (honest.variant (honest.numData + position)) = 1228 - honest.trailing := by
  rw [proofStart, proofAndSignatureSize_eq, variant_code]
  rfl

theorem capacityEnd_data_le (place : Nat) (data : place < honest.numData) :
    capacityEnd (honest.variant place) ≤ 1203 - honest.trailing := by
  rw [← honest.proofStart_data place data,
    ← proofStart_eq _ (honest.variant_small place)]
  exact Nat.le_add_right _ _

theorem trailing_eq : honest.trailing =
    honest.proofSize * 20 + if honest.resigned then 64 else 0 := rfl

theorem fits_data (place : Nat) (data : place < honest.numData) :
    proofStart (honest.variant place) + honest.proofSize * merkleProofEntrySize ≤
      merkleDataPayloadSize := by
  have bound := honest.trailing_le
  rw [proofStart_data honest place data, merkleProofEntrySize, merkleDataPayloadSize]
  rw [trailing_eq] at bound ⊢
  omega

theorem fits_code_iff (position : Nat) :
    proofStart (honest.variant (honest.numData + position)) +
        honest.proofSize * merkleProofEntrySize ≤ merkleDataPayloadSize ↔
      honest.resigned = true := by
  have bound := honest.trailing_le
  rw [proofStart_code, merkleProofEntrySize, merkleDataPayloadSize]
  rw [trailing_eq] at bound ⊢
  cases resigned : honest.resigned with
  | false => simp only [resigned] at bound ⊢; simp at bound ⊢; omega
  | true => simp only [resigned] at bound ⊢; simp at bound ⊢; omega

theorem le_of_merkleNode_ok (payload : Bytes) (source : Nat) (node : Hash)
    (done : merkleNode ledger payload (honest.variant source) = .ok node) :
    proofStart (honest.variant source) ≤ payload.length := by
  rw [merkleNode, merkleProofOffset_eq _ (honest.variant_merkle source)
    (honest.variant_small source)] at done
  dsimp only at done
  cases part : slice payload signatureSize (proofStart (honest.variant source)) with
  | none =>
      rw [part] at done
      cases done
  | some bytes => exact (slice_eq_some _ _ _ _ part).2.1

theorem le_of_setMerkleProof_ok (payload written : Bytes) (source : Nat) (proof : List Bytes)
    (done : setMerkleProof payload (honest.variant source) proof = .ok written) :
    proofStart (honest.variant source) + honest.proofSize * merkleProofEntrySize ≤
      payload.length := by
  rw [setMerkleProof, merkleProofOffset_eq _ (honest.variant_merkle source)
    (honest.variant_small source)] at done
  dsimp only at done
  split at done
  · cases done
  · rename_i sameSize
    rw [not_not, variant_proofSize] at sameSize
    split at done
    · cases done
    · rename_i fits
      rw [sameSize] at fits
      omega

theorem setMerkleProof_of_finishShred_ok (source place : Nat) (tree : List Hash)
    (payload : Bytes) (shred : Shred)
    (done : FecSet.finishShred ledger (honest.variant source) honest.total tree place payload =
      .ok shred) :
    ∃ proof written, setMerkleProof payload (honest.variant source) proof = .ok written := by
  rw [FecSet.finishShred] at done
  cases proofFound : makeMerkleProof place honest.total tree with
  | none =>
      rw [proofFound] at done
      cases done
  | some proof =>
      rw [proofFound] at done
      simp only [orError, ok_bind] at done
      cases writtenFound : setMerkleProof payload (honest.variant source) proof with
      | error message =>
          rw [writtenFound] at done
          cases done
      | ok written => exact ⟨proof, written, writtenFound⟩

theorem rebuildPayload_of_rebuildBatch_ok (batch : FecSet.RebuiltBatch)
    (holds : honest.Holds set) (restores : honest.Restores)
    (enough : honest.numData ≤ set.allShreds.length)
    (coding : set.codingShreds.entries.length ≠ 0) (source : Nat) (inside : source < honest.total)
    (found : set.recoveryVariant = some (honest.variant source))
    (done : set.rebuildBatch ledger = .ok batch) (place : Nat) (within : place < honest.total) :
    ∃ payload node, honest.FaithfulAt place payload ∧
      merkleNode ledger payload (honest.variant source) = .ok node := by
  obtain ⟨header, headerDone, headerOf, sameVariant⟩ :=
    honest.recoveryHeader_ok set holds coding source inside found
  have placedAll := honest.placeAll set holds header.slot header.fecSetIndex
  have full := honest.reconstruct_placed set restores holds enough
  rw [total] at placedAll full
  rw [FecSet.rebuildBatch, headerDone, ok_bind, headerOf.codingMeta] at done
  dsimp only at done
  rw [placedAll, ok_bind, restores.1] at done
  dsimp only at done
  rw [full] at done
  dsimp only at done
  cases outputs : (List.range (honest.numData + honest.numCoding)).mapM (fun index => do
      let payload ← FecSet.rebuildPayload header (honest.placed set.allShreds).presentPayloads
        ((List.range (honest.numData + honest.numCoding)).map
          (fun place => some (honest.shard place))) index
      let node ← merkleNode ledger payload header.variant
      return (payload, node)) with
  | error message =>
      rw [outputs] at done
      cases done
  | ok rebuilt =>
      obtain ⟨output, here⟩ := mapM_each _ _ _ outputs place (List.mem_range.mpr within)
      obtain ⟨payload, rebuiltHere, faithful, -⟩ :=
        honest.rebuildPayload_ok header headerOf set.allShreds place within
      rw [total] at rebuiltHere
      rw [rebuiltHere, ok_bind, sameVariant] at here
      cases nodeFound : merkleNode ledger payload (honest.variant source) with
      | error message =>
          rw [nodeFound] at here
          cases here
      | ok node => exact ⟨payload, node, faithful, nodeFound⟩

theorem finishShred_of_maybeRecoverMerkle_ok (batch : FecSet.RebuiltBatch)
    (recovered : List Shred) (source : Nat) (batchOf : honest.BatchOf set source batch)
    (rebuilt : set.rebuildBatch ledger = .ok batch)
    (done : set.maybeRecoverMerkle ledger = .ok recovered) (place : Nat)
    (member : place ∈ honest.missing set) :
    ∃ shred, FecSet.finishShred ledger (honest.variant source) honest.total
      (makeMerkleTree ledger batch.nodes) place (batch.fullPayloads.getD place []) = .ok shred := by
  have same := honest.missing_eq set source batch batchOf
  rw [FecSet.maybeRecoverMerkle, rebuilt, ok_bind] at done
  dsimp only at done
  rw [batchOf.header.codingMeta, batchOf.variant] at done
  dsimp only at done
  rw [same] at done
  exact mapM_each _ _ _ done place member

/-- Read through the variant of a coding shred, a proof does not fit behind a data
shred unless a retransmitter's signature leaves room. -/
theorem not_recovered_from_code (restores : honest.Restores) (holds : honest.Holds set)
    (coding : set.codingShreds.entries.length ≠ 0)
    (enough : honest.numData ≤ set.allShreds.length) (position : Nat)
    (within : position < honest.numCoding)
    (found : set.recoveryVariant = some (honest.variant (honest.numData + position)))
    (plain : ¬ honest.resigned = true) (place : Nat) (lost : place ∈ honest.missing set)
    (recovered : List Shred) : set.maybeRecoverMerkle ledger ≠ .ok recovered := by
  intro done
  have inside : honest.numData + position < honest.total := by unfold total; omega
  have data := List.mem_range.mp (List.mem_filter.mp lost).1
  have placeIn : place < honest.total := by unfold total; omega
  have noRoom := (not_congr (honest.fits_code_iff position)).mpr plain
  have dataSize : ∀ payload, honest.FaithfulAt place payload →
      payload.length = merkleDataPayloadSize := by
    intro payload faithful
    rw [faithful.1, variant_data honest place data]
    rfl
  cases rebuilt : set.rebuildBatch ledger with
  | error message =>
      rw [FecSet.maybeRecoverMerkle, rebuilt] at done
      cases done
  | ok batch =>
      by_cases fits : proofStart (honest.variant (honest.numData + position)) ≤
          merkleDataPayloadSize
      · obtain ⟨same, sameDone, batchOf⟩ := honest.rebuildBatch_ok set restores holds coding enough
          _ inside found fits
        obtain rfl : batch = same := Except.ok.inj (rebuilt.symm.trans sameDone)
        obtain ⟨shred, finished⟩ := honest.finishShred_of_maybeRecoverMerkle_ok set batch recovered
          _ batchOf rebuilt done place lost
        obtain ⟨proof, written, wrote⟩ := honest.setMerkleProof_of_finishShred_ok _ _ _ _ _ finished
        have long := honest.le_of_setMerkleProof_ok _ _ _ _ wrote
        rw [dataSize _ (batchOf.faithful place placeIn)] at long
        exact noRoom long
      · obtain ⟨payload, node, faithful, hashed⟩ := honest.rebuildPayload_of_rebuildBatch_ok set
          batch holds restores enough coding _ inside found rebuilt place placeIn
        have long := honest.le_of_merkleNode_ok payload _ node hashed
        rw [dataSize payload faithful] at long
        exact fits long

/-- Once recovery is attempted it returns exactly the missing data shreds, their
headers and data restored, if and only if some data shred is there to tell the
data layout or the set is resigned. -/
theorem recovers_missing_iff (restores : honest.Restores) (parses : honest.Parses)
    (holds : honest.Holds set) (attempted : set.canAttemptRecovery = true) :
    (∃ recovered, set.maybeRecoverMerkle ledger = .ok recovered ∧
        List.Forall₂ honest.Restored (honest.missing set) recovered) ↔
      set.dataShreds.entries.length ≠ 0 ∨ honest.resigned = true := by
  rw [FecSet.canAttemptRecovery, holds.recorded] at attempted
  simp only [decide_eq_true_eq] at attempted
  obtain ⟨coding, fewData, present⟩ := attempted
  have enough : honest.numData ≤ set.allShreds.length := by
    rw [length_allShreds]
    exact present
  have succeeds : ∀ source < honest.total, set.recoveryVariant = some (honest.variant source) →
      proofStart (honest.variant source) + honest.proofSize * merkleProofEntrySize ≤
        merkleDataPayloadSize →
      1203 - honest.trailing ≤ proofStart (honest.variant source) →
      ∃ recovered, set.maybeRecoverMerkle ledger = .ok recovered ∧
        List.Forall₂ honest.Restored (honest.missing set) recovered := by
    intro source inside found fits behind
    obtain ⟨batch, recovered, -, -, done, each⟩ := honest.maybeRecoverMerkle_ok set restores holds
      coding enough source inside found parses fits
      (fun place data => (honest.capacityEnd_data_le place data).trans behind)
    exact ⟨recovered, done, each.imp (fun place shred facts => facts.1)⟩
  by_cases noData : set.dataShreds.entries.length = 0
  · obtain ⟨position, within, found⟩ := honest.recoveryVariant_code set holds noData coding
    have inside : honest.numData + position < honest.total := by unfold total; omega
    constructor
    · intro ⟨recovered, done, _⟩
      right
      by_contra plain
      have first : 0 ∈ honest.missing set := by
        rw [missing, List.mem_filter, List.mem_range, decide_eq_true_eq]
        refine ⟨honest.someData, ?_⟩
        intro member
        have noValues : HashMap.values set.dataShreds = [] := by
          apply List.eq_nil_of_length_eq_zero
          rw [HashMap.values, List.length_map, noData]
        rw [FecSet.allShreds, noValues, List.nil_append] at member
        obtain ⟨other, otherIn, same⟩ := honest.isCode_of_values set holds _ member
        have places := honest.shred_injective 0 (honest.numData + other)
          (by unfold total; omega) (by unfold total; omega) same
        have some := honest.someData
        omega
      exact honest.not_recovered_from_code set restores holds coding enough position within found
        plain 0 first recovered done
    · intro condition
      have resigned := condition.resolve_left (fun data => data noData)
      apply succeeds _ inside found ((honest.fits_code_iff position).mpr resigned)
      rw [proofStart_code]
      omega
  · obtain ⟨place, data, found⟩ := honest.recoveryVariant_data set holds noData
    constructor
    · intro _
      exact Or.inl noData
    · intro _
      apply succeeds place (by unfold total; omega) found (honest.fits_data place data)
      rw [proofStart_data honest place data]

/-- The erasure shard at a place of a batch whose two data shreds differ only in
their index; the code continues the line through them. -/
def sampleShard (place : Nat) : Bytes :=
  [0x82] ++ List.replicate 8 0 ++ [UInt8.ofNat place, 0, 0, 0] ++ List.replicate 9 0 ++ [88, 0] ++
    List.replicate 1075 0

def sampleCodingHeader (position : Nat) : Bytes :=
  List.replicate 8 0 ++ [UInt8.ofNat position, 0, 0, 0] ++ List.replicate 6 0 ++
    [2, 0, 2, 0, UInt8.ofNat position, 0]

/-- The bytes of a payload behind its signature and before its proof. -/
def sampleBody (place : Nat) : Bytes :=
  if place < 2 then sampleShard place
  else [0x42] ++ sampleCodingHeader (place - 2) ++ sampleShard place

def digest (number : Nat) : Hash := ⟨(leBytes 32 number).reverse, by simp [leBytes_length]⟩

def sampleLeaf : Nat → Hash
  | 0 => digest 0x7c668c9ce0b30dac8704ea74f75d2d73921fe2e0ca4bb0c2581582713ad4a531
  | 1 => digest 0x89ebced2741aafb28a9cf3545b083b8fd7755525a9b58ad3ff85a731972cd547
  | 2 => digest 0x04b0a3b89cbf746743cd624d2ef04734d222f2b450dbdea12cb02c636af1495c
  | _ => digest 0xa7b9a02e55b41f90b6240dd3c95fceb1c259ff87f11a623ae5d0cce3d37308e4

def sampleParent : Nat → Hash
  | 0 => digest 0x7a5069ba63864070847f2a2586738ca48a747be79d50ef60ba64acb7c37f2341
  | _ => digest 0x8f475486c30e3f322e4f8ed1d0d0425a3a2836cb4bc878cdfd5b1a2a1fef52cc

/-- The leaves and the parent a recovery from the first data and the first coding
shred hashes in place of those of the coding shreds. -/
def cutLeaf : Nat → Hash
  | 2 => digest 0x519f42bc73b488baa3af14fd0c64a6266c91d459ae8d0b9b0a5edbe863f5ec6d
  | _ => digest 0xfeaf313823b6637d4856152587d7b13f62fc23ea88bf76170252ca33c67a4380

def cutParent : Hash := digest 0x077cd023d92d2ca047e2ba7385d5951949fc6bed17d8e859694004a13cb651be

def leafInput (body : Bytes) : Bytes := merkleHashPrefixLeaf ++ body

def joinInput (left right : Hash) : Bytes :=
  merkleHashPrefixNode ++ proofEntry left ++ proofEntry right

/-- The SHA-256 digests of the strings that come up. -/
def sampleDigests : List (Bytes × Hash) :=
  [(leafInput (sampleBody 0), sampleLeaf 0), (leafInput (sampleBody 1), sampleLeaf 1),
    (leafInput (sampleBody 2), sampleLeaf 2), (leafInput (sampleBody 3), sampleLeaf 3),
    (joinInput (sampleLeaf 0) (sampleLeaf 1), sampleParent 0),
    (joinInput (sampleLeaf 2) (sampleLeaf 3), sampleParent 1),
    (joinInput (sampleParent 0) (sampleParent 1),
      digest 0xefb756ef721f0f02daa65fd50ec6c9191341ea0e26cc241154981383acf6f0af),
    (leafInput ((sampleBody 2).take 1099), cutLeaf 2),
    (leafInput (([0x82] ++ sampleCodingHeader 1 ++ sampleShard 3).take 1099), cutLeaf 3),
    (joinInput (cutLeaf 2) (cutLeaf 3), cutParent),
    (joinInput (sampleParent 0) cutParent,
      digest 0x2bc072ef7f50d93a00d36262744c2c573174e8cff253c96b39e9bc74ebd4da5a)]

def samplePayload (place : Nat) : Bytes :=
  List.replicate 64 0 ++ sampleBody place ++ proofEntry (sampleLeaf (place ^^^ 1)) ++
    proofEntry (sampleParent (place / 2 ^^^ 1))

/-- The parser, as far as the headers of Merkle shreds go. -/
def parseMerkleShred (payload : Bytes) : Except String Shred :=
  match parseU64 payload slotOffset, parseU32 payload indexOffset,
      parseU32 payload fecSetIndexOffset, (payload[85]? : Option UInt8) with
  | .ok slot, .ok index, .ok fecSetIndex, some flags =>
      match read : RecoveryVariant.fromPayload payload with
      | none => .error "InvalidShredVariant"
      | some variant =>
          if inSlot : index < maxDataShredsPerSlot then
            if sized : payload.length = variant.payloadSize then
              .ok
                { payload, slot, index, fecSetIndex, isData := variant.isData
                  dataComplete := variant.isData && (flags &&& 0x40 == 0x40)
                  lastInSlot := variant.isData && (flags &&& 0xc0 == 0xc0)
                  indexInSlot := inSlot
                  sized := by
                    intro other same
                    rw [read, Option.some.injEq] at same
                    rw [sized, same] }
            else .error "InvalidPayloadSize"
          else .error "InvalidShredIndex"
  | _, _, _, _ => .error "InvalidPayload"

theorem samplePayload_variant : ∀ place : Fin 4,
    RecoveryVariant.fromPayload (samplePayload place) = some (variantAt 2 2 false false place) := by
  decide +kernel

theorem samplePayload_length : ∀ place : Fin 4, (samplePayload place).length =
    (variantAt 2 2 false false place).payloadSize := by
  decide +kernel

instance fourPlaces : NeZero 4 := ⟨four_ne_zero⟩

def sampleShred (place : Fin 4) : Shred :=
  { payload := samplePayload place, slot := 0, index := place % 2, fecSetIndex := 0
    isData := decide (place < 2), dataComplete := false, lastInSlot := false
    indexInSlot := by
      rw [maxDataShredsPerSlot]
      omega
    sized := by
      intro variant read
      rw [samplePayload_variant place, Option.some.injEq] at read
      rw [samplePayload_length place, read] }

def sampleLedger : Ledger :=
  { newFromSerializedShred := parseMerkleShred
    tryRecovery := fun _ => .error "not a legacy shred"
    deshred := fun _ => .error "not deshredded"
    newReedSolomon := fun _ _ => .ok ()
    reconstruct := fun _ _ _ => .ok ((List.range 4).map (fun place => some (sampleShard place)))
    sha256 := fun input => ((sampleDigests.find? (fun entry => entry.1 == input)).map
      Prod.snd).getD default }

def sampleSet : HonestFecSet sampleLedger :=
  { numData := 2, numCoding := 2, proofSize := 2, chained := false, resigned := false
    slot := 0, version := 0, fecSetIndex := 0, firstCodingIndex := 0
    signature := List.replicate 64 0, chainedMerkleRoot := []
    shred := fun place => sampleShred (Fin.ofNat 4 place)
    someData := by decide
    someCoding := by decide
    fits := by decide
    depth := by decide +kernel
    resignedChained := by decide
    variants := by decide +kernel
    kind := by decide +kernel
    sameSlot := by decide +kernel
    dataIndex := by decide +kernel
    codeIndex := by decide +kernel
    signed := by decide +kernel
    slotHeader := by decide +kernel
    versionHeader := by decide +kernel
    fecSetHeader := by decide +kernel
    indexHeader := by decide +kernel
    numDataHeader := by decide +kernel
    numCodingHeader := by decide +kernel
    positionHeader := by decide +kernel
    chainedRoot := by decide
    proven := by decide +kernel }

theorem sampleSet_restores : sampleSet.Restores := by
  refine ⟨rfl, ?_⟩
  intro shards _ _ _
  have same : ∀ place : Fin 4, sampleSet.shard place = sampleShard place := by decide +kernel
  have each : (List.range sampleSet.total).map (fun place => some (sampleSet.shard place)) =
      (List.range 4).map (fun place => some (sampleShard place)) := by
    apply List.map_congr_left
    intro place member
    rw [← same ⟨place, List.mem_range.mp member⟩]
  rw [each]
  simp only [sampleLedger]

theorem parseMerkleShred_ok (payload : Bytes) (slot index fecSetIndex : Nat) (flags : UInt8)
    (variant : RecoveryVariant) (slotRead : parseU64 payload slotOffset = .ok slot)
    (indexRead : parseU32 payload indexOffset = .ok index)
    (fecSetRead : parseU32 payload fecSetIndexOffset = .ok fecSetIndex)
    (flagsRead : payload[85]? = some flags)
    (variantRead : RecoveryVariant.fromPayload payload = some variant)
    (inSlot : index < maxDataShredsPerSlot) (sized : payload.length = variant.payloadSize) :
    ∃ shred, parseMerkleShred payload = .ok shred ∧ shred.payload = payload ∧
      shred.isData = variant.isData ∧ shred.slot = slot ∧ shred.index = index := by
  unfold parseMerkleShred
  rw [slotRead, indexRead, fecSetRead, flagsRead]
  dsimp only
  split
  · rename_i none
    rw [variantRead] at none
    cases none
  · rename_i found read
    obtain rfl : variant = found := Option.some.inj (variantRead.symm.trans read)
    rw [dif_pos inSlot, dif_pos sized]
    exact ⟨_, rfl, rfl, rfl, rfl, rfl⟩

theorem sampleSet_parses : sampleSet.Parses := by
  intro place data payload size same
  have two : place < 2 := data
  have ends : capacityEnd (sampleSet.variant place) = 1163 := by
    rw [variant_data sampleSet place data]
    rfl
  have whole : (sampleSet.payload place).length = merkleDataPayloadSize :=
    sampleSet.length_data place data
  have inside : place < sampleSet.numData + sampleSet.numCoding := Nat.lt_add_right _ data
  rw [ends] at same
  rw [merkleDataPayloadSize] at size whole
  have parts := fun start stop before =>
    slice_congr payload (sampleSet.payload place) start stop 1163 same before (by omega) (by omega)
  have slotRead : parseU64 payload slotOffset = .ok 0 := by
    rw [parseU64, parts _ _ (by decide)]
    exact sampleSet.slotHeader place inside
  have indexRead : parseU32 payload indexOffset = .ok (sampleSet.shred place).index := by
    rw [parseU32, parts _ _ (by decide)]
    exact sampleSet.indexHeader place inside
  have fecSetRead : parseU32 payload fecSetIndexOffset = .ok 0 := by
    rw [parseU32, parts _ _ (by decide)]
    exact sampleSet.fecSetHeader place inside
  obtain ⟨flags, flagsRead⟩ : ∃ flags, payload[85]? = some flags :=
    ⟨_, List.getElem?_eq_getElem (by omega)⟩
  have variantRead : RecoveryVariant.fromPayload payload = some (sampleSet.variant place) := by
    rw [RecoveryVariant.fromPayload, getElem_congr payload (sampleSet.payload place) _ 1163 same
      (by decide)]
    exact sampleSet.variants place inside
  obtain ⟨shred, parsed, samePayload, isData, sameSlot, sameIndex⟩ := parseMerkleShred_ok payload
    0 _ 0 flags _ slotRead indexRead fecSetRead flagsRead variantRead
    (sampleSet.shred place).indexInSlot (by
      rw [size, variant_data sampleSet place data]
      rfl)
  refine ⟨shred, parsed, samePayload, ?_, sameSlot, sameIndex⟩
  rw [isData, variant_data sampleSet place data]
  rfl

/-- Both coding shreds of the batch and no data shred. -/
def codingOnly : FecSet :=
  { dataShreds := HashMap.empty
    codingShreds := (HashMap.empty.insert 1 (sampleShred 3)).insert 0 (sampleShred 2)
    codingMeta := some ⟨2, 2, 0⟩ }

theorem codingOnly_holds : sampleSet.Holds codingOnly := by
  refine ⟨?_, ?_, rfl⟩
  · intro index shred found
    simp [codingOnly] at found
  · intro index shred found
    rw [codingOnly] at found
    dsimp only at found
    by_cases zero : index = 0
    · subst zero
      rw [HashMap.get_insert, Option.some.injEq] at found
      exact ⟨0, by decide, found.symm, by rw [← found]; rfl⟩
    · rw [HashMap.get_insert_ne _ _ _ _ zero] at found
      by_cases one : index = 1
      · subst one
        rw [HashMap.get_insert, Option.some.injEq] at found
        exact ⟨1, by decide, found.symm, by rw [← found]; rfl⟩
      · rw [HashMap.get_insert_ne _ _ _ _ one] at found
        simp at found

theorem coding_shreds_alone_fail : sampleSet.Holds codingOnly ∧
    codingOnly.canAttemptRecovery = true ∧
    codingOnly.maybeRecoverMerkle sampleLedger = .error "invalid proof write range" :=
  ⟨codingOnly_holds, by decide +kernel, by decide +kernel⟩

theorem recovers_missing_iff_codingOnly :
    (∃ recovered, codingOnly.maybeRecoverMerkle sampleLedger = .ok recovered ∧
        List.Forall₂ sampleSet.Restored (sampleSet.missing codingOnly) recovered) ↔
      codingOnly.dataShreds.entries.length ≠ 0 ∨ sampleSet.resigned = true :=
  recovers_missing_iff sampleSet codingOnly sampleSet_restores sampleSet_parses codingOnly_holds
    (by decide +kernel)

end Helios.HonestFecSet
