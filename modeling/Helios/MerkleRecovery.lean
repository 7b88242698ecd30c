import Helios.Fallible
import Helios.HonestFecSet

/-! Recovery of missing data shreds from part of an honest Merkle FEC set. -/

namespace Helios

open Machine Fallible

namespace HonestFecSet

variable {ledger : Ledger} (honest : HonestFecSet ledger) (set : FecSet)

theorem shred_of_mem (holds : honest.Holds set) (shred : Shred) (member : shred ∈ set.allShreds) :
    ∃ place < honest.total, shred = honest.shred place := by
  rcases List.mem_append.mp member with data | coding
  · obtain ⟨index, found⟩ := (HashMap.mem_values _ _).mp data
    obtain ⟨place, inside, same, -⟩ := holds.data index shred found
    exact ⟨place, by unfold total; omega, same⟩
  · obtain ⟨index, found⟩ := (HashMap.mem_values _ _).mp coding
    obtain ⟨position, inside, same, -⟩ := holds.coding index shred found
    exact ⟨honest.numData + position, by unfold total; omega, same⟩

theorem isData_of_values (holds : honest.Holds set) (shred : Shred)
    (member : shred ∈ HashMap.values set.dataShreds) :
    ∃ place < honest.numData, shred = honest.shred place := by
  obtain ⟨index, found⟩ := (HashMap.mem_values _ _).mp member
  obtain ⟨place, inside, same, -⟩ := holds.data index shred found
  exact ⟨place, inside, same⟩

theorem isCode_of_values (holds : honest.Holds set) (shred : Shred)
    (member : shred ∈ HashMap.values set.codingShreds) :
    ∃ position < honest.numCoding, shred = honest.shred (honest.numData + position) := by
  obtain ⟨index, found⟩ := (HashMap.mem_values _ _).mp member
  obtain ⟨position, inside, same, -⟩ := holds.coding index shred found
  exact ⟨position, inside, same⟩

theorem nodup_allShreds (holds : honest.Holds set) : set.allShreds.Nodup := by
  apply List.Nodup.append
  · apply HashMap.nodup_values _ Shred.index
    intro index shred found
    obtain ⟨place, inside, -, same⟩ := holds.data index shred found
    exact same
  · apply HashMap.nodup_values _ Shred.index
    intro index shred found
    obtain ⟨position, inside, -, same⟩ := holds.coding index shred found
    exact same
  · intro shred inData inCoding
    obtain ⟨place, inside, same⟩ := honest.isData_of_values set holds shred inData
    obtain ⟨position, within, other⟩ := honest.isCode_of_values set holds shred inCoding
    have places := honest.shred_injective place (honest.numData + position)
      (by unfold total; omega) (by unfold total; omega) (same.symm.trans other)
    omega

theorem length_allShreds : set.allShreds.length =
    set.dataShreds.entries.length + set.codingShreds.entries.length := by
  rw [FecSet.allShreds, List.length_append, HashMap.values, HashMap.values, List.length_map,
    List.length_map]

/-- The erasure batch with the places of the given shreds filled. -/
def placed (seen : List Shred) : FecSet.Placed :=
  { presentPayloads := (List.range honest.total).map (fun place =>
      if honest.shred place ∈ seen then some (honest.payload place) else none)
    shards := (List.range honest.total).map (fun place =>
      if honest.shred place ∈ seen then some (honest.shard place) else none) }

theorem placeShred_shred (slot fecSetIndex : Nat) (seen : List Shred) (place : Nat)
    (inside : place < honest.total) :
    FecSet.placeShred slot fecSetIndex honest.total (honest.placed seen) (honest.shred place) =
      .ok (honest.placed (honest.shred place :: seen)) := by
  have index := honest.erasureShardIndex_shred place inside
  have bytes := honest.erasureShardBytes_shred place inside
  rw [payload] at index bytes
  have filled : ∀ {α : Type} (value : Nat → α),
      ((List.range honest.total).map (fun other =>
        if honest.shred other ∈ seen then some (value other) else none)).set place
          (some (value place)) =
      (List.range honest.total).map (fun other =>
        if honest.shred other ∈ honest.shred place :: seen then some (value other) else none) := by
    intro α value
    rw [set_map_range]
    apply List.map_congr_left
    intro other member
    have within := List.mem_range.mp member
    by_cases same : other = place
    · subst same
      rw [if_pos rfl, if_pos List.mem_cons_self]
    · have different : honest.shred other ≠ honest.shred place :=
        fun equal => same (honest.shred_injective other place within inside equal)
      rw [if_neg same]
      simp only [List.mem_cons, different, false_or]
  rw [FecSet.placeShred, index]
  simp only [if_neg (Nat.not_le.mpr inside), bytes]
  change Except.ok (FecSet.Placed.mk
    (((List.range honest.total).map (fun other =>
      if honest.shred other ∈ seen then some (honest.payload other) else none)).set place
        (some (honest.payload place)))
    (((List.range honest.total).map (fun other =>
      if honest.shred other ∈ seen then some (honest.shard other) else none)).set place
        (some (honest.shard place)))) = _
  rw [filled honest.payload, filled honest.shard]
  rfl

theorem placeShreds (slot fecSetIndex : Nat) (shreds seen : List Shred)
    (all : ∀ shred ∈ shreds, ∃ place < honest.total, shred = honest.shred place) :
    shreds.foldlM (FecSet.placeShred slot fecSetIndex honest.total) (honest.placed seen) =
      .ok (honest.placed (shreds.reverse ++ seen)) := by
  induction shreds generalizing seen with
  | nil => rfl
  | cons shred rest ih =>
      obtain ⟨place, inside, rfl⟩ := all shred List.mem_cons_self
      rw [List.foldlM_cons, placeShred_shred honest slot fecSetIndex seen place inside]
      have later := ih (honest.shred place :: seen)
        (fun other member => all other (List.mem_cons_of_mem _ member))
      rw [List.reverse_cons, List.append_assoc, List.singleton_append]
      exact later

theorem placed_congr (first second : List Shred)
    (same : ∀ shred, shred ∈ first ↔ shred ∈ second) :
    honest.placed first = honest.placed second := by
  simp only [placed, same]

theorem placed_nil : honest.placed [] =
    ⟨List.replicate honest.total none, List.replicate honest.total none⟩ := by
  simp [placed]

theorem placeAll (holds : honest.Holds set) (slot fecSetIndex : Nat) :
    set.allShreds.foldlM (FecSet.placeShred slot fecSetIndex honest.total)
        ⟨List.replicate honest.total none, List.replicate honest.total none⟩ =
      .ok (honest.placed set.allShreds) := by
  rw [← placed_nil, placeShreds honest slot fecSetIndex set.allShreds []
    (fun shred member => honest.shred_of_mem set holds shred member)]
  congr 1
  apply placed_congr
  intro shred
  simp

/-- As many places are filled as there are shreds. -/
theorem filled_places (holds : honest.Holds set) :
    set.allShreds.length ≤ (honest.placed set.allShreds).shards.countP Option.isSome := by
  have count : (honest.placed set.allShreds).shards.countP Option.isSome =
      ((List.range honest.total).filter (fun place =>
        decide (honest.shred place ∈ set.allShreds))).length := by
    rw [placed, List.countP_map, List.countP_eq_length_filter]
    congr 1
    apply List.filter_congr
    intro place _
    by_cases here : honest.shred place ∈ set.allShreds
    · simp [here]
    · simp [here]
  rw [count, ← List.length_map honest.shred]
  apply ((honest.nodup_allShreds set holds).subperm _).length_le
  intro shred member
  obtain ⟨place, inside, rfl⟩ := honest.shred_of_mem set holds shred member
  apply List.mem_map.mpr
  refine ⟨place, ?_, rfl⟩
  rw [List.mem_filter, decide_eq_true_eq]
  exact ⟨List.mem_range.mpr inside, member⟩

theorem reconstruct_placed (restores : honest.Restores) (holds : honest.Holds set)
    (enough : honest.numData ≤ set.allShreds.length) :
    ledger.reconstruct honest.numData honest.numCoding (honest.placed set.allShreds).shards =
      .ok ((List.range honest.total).map (fun place => some (honest.shard place))) := by
  apply restores.2
  · rw [placed, List.length_map, List.length_range]
  · intro place inside shard found
    rw [placed, List.getElem?_map, List.getElem?_range inside] at found
    by_cases here : honest.shred place ∈ set.allShreds
    · simp only [Option.map_some, if_pos here, Option.some.injEq] at found
      exact found.symm
    · simp [here] at found
  · exact Nat.le_trans enough (honest.filled_places set holds)

/-- What a recovery takes from an honest set as a whole, read through the variant
of one of its shreds. -/
structure HeaderOf (header : FecSet.RecoveryHeader) : Prop where
  variant : ∃ place < honest.total, header.variant = honest.variant place
  codingMeta : header.codingMeta =
    ⟨honest.numData, honest.numCoding, honest.firstCodingIndex⟩
  signature : header.signature = honest.signature
  root : ∀ root, header.chainedMerkleRoot = some root →
    honest.chained = true ∧ root.length = merkleRootSize

theorem length_signature : honest.signature.length = signatureSize := by
  have first := honest.signed 0 (by have some := honest.someData; omega)
  obtain ⟨-, inside, same⟩ := slice_eq_some _ _ _ _ first
  rw [same, List.drop_zero, List.length_take, Nat.min_eq_left inside]

theorem extractRoot_length (payload root : Bytes) (variant : RecoveryVariant)
    (found : extractChainedMerkleRoot payload variant = some root) :
    variant.chained = true ∧ root.length = merkleRootSize := by
  rw [extractChainedMerkleRoot] at found
  split at found
  · rename_i chained
    refine ⟨chained, ?_⟩
    split at found
    · cases found
    · obtain ⟨ordered, inside, same⟩ := slice_eq_some _ _ _ _ found
      rw [same, List.length_drop, List.length_take, Nat.min_eq_left inside,
        Nat.add_sub_cancel_left]
  · cases found

theorem variant_chained (place : Nat) : (honest.variant place).chained = honest.chained := by
  unfold variant variantAt
  split
  · rfl
  · rfl

theorem variant_resigned (place : Nat) : (honest.variant place).resigned = honest.resigned := by
  unfold variant variantAt
  split
  · rfl
  · rfl

/-- With a coding shred and a variant at hand the header can be read. -/
theorem recoveryHeader_ok (holds : honest.Holds set)
    (coding : set.codingShreds.entries.length ≠ 0) (place : Nat) (inside : place < honest.total)
    (found : set.recoveryVariant = some (honest.variant place)) :
    ∃ header, set.recoveryHeader = .ok header ∧ honest.HeaderOf header ∧
      header.variant = honest.variant place := by
  obtain ⟨firstCode, first⟩ : ∃ shred, (HashMap.values set.codingShreds).head? = some shred := by
    cases entries : HashMap.values set.codingShreds with
    | nil =>
        have empty : (HashMap.values set.codingShreds).length = 0 := by rw [entries]; rfl
        rw [HashMap.values, List.length_map] at empty
        exact absurd empty coding
    | cons shred rest => exact ⟨shred, rfl⟩
  obtain ⟨position, within, rfl⟩ := honest.isCode_of_values set holds firstCode
    (List.mem_of_mem_head? first)
  have codeIn : honest.numData + position < honest.numData + honest.numCoding := by omega
  let root := (extractChainedMerkleRoot (honest.shred (honest.numData + position)).payload
    (honest.variant place)).orElse (fun _ => (HashMap.values set.dataShreds).findSome? (fun shred =>
      extractChainedMerkleRoot shred.payload (honest.variant place)))
  refine ⟨⟨honest.variant place, ⟨honest.numData, honest.numCoding, honest.firstCodingIndex⟩,
    honest.signature, honest.slot, honest.version, honest.fecSetIndex, root⟩, ?_,
    ⟨⟨place, inside, rfl⟩, rfl, rfl, ?_⟩, rfl⟩
  · rw [FecSet.recoveryHeader, found, holds.recorded, first]
    simp only [ok_bind, orError, honest.signed _ codeIn, honest.slotHeader _ codeIn,
      honest.versionHeader _ codeIn, honest.fecSetHeader _ codeIn]
    rfl
  · intro bytes read
    rw [← honest.variant_chained place]
    change root = some bytes at read
    unfold root at read
    cases own : extractChainedMerkleRoot (honest.shred (honest.numData + position)).payload
        (honest.variant place) with
    | some found =>
        rw [own, Option.orElse_some, Option.some.injEq] at read
        exact extractRoot_length _ bytes _ (read ▸ own)
    | none =>
        rw [own, Option.orElse_none] at read
        obtain ⟨shred, -, there⟩ := List.exists_of_findSome?_eq_some read
        exact extractRoot_length _ bytes _ there

/-- A payload of the right length that has the headers and data of the honest one. -/
def FaithfulAt (place : Nat) (payload : Bytes) : Prop :=
  payload.length = (honest.variant place).payloadSize ∧
    (place < honest.numData → payload.take (capacityEnd (honest.variant place)) =
      (honest.payload place).take (capacityEnd (honest.variant place)))

theorem trailerSize_variant (first second : Nat) :
    trailerSize (honest.variant first) = trailerSize (honest.variant second) := by
  rw [trailerSize_eq, trailerSize_eq, variant_chained, variant_chained,
    proofAndSignatureSize_eq, proofAndSignatureSize_eq]

theorem expectedShardSize_variant (place : Nat) :
    expectedShardSize (honest.variant place) = 1139 - honest.trailing := by
  rw [expectedShardSize, trailing, variant_proofSize, variant_resigned, legacyPayloadSize,
    legacyCodingHeadersSize]
  omega

/-- The end of the data is well before the end of the payload. -/
theorem root_fits (place : Nat) (root : Bytes) (chained : honest.chained = true)
    (size : root.length = merkleRootSize) :
    root.length ≤ trailerSize (honest.variant place) := by
  rw [trailerSize_eq, variant_chained, chained, if_pos rfl, size]
  omega

theorem writeChainedRoot_ok (payload : Bytes) (start : Nat) (root : Option Bytes)
    (fits : ∀ bytes, root = some bytes → start + bytes.length ≤ payload.length)
    (inside : start ≤ payload.length) :
    ∃ written, writeChainedRoot payload (.ok start) root = .ok written ∧
      written.length = payload.length ∧ written.take start = payload.take start := by
  cases root with
  | none => exact ⟨payload, rfl, rfl, rfl⟩
  | some bytes =>
      exact ⟨overwrite payload start bytes, rfl, length_overwrite payload bytes start
        (fits bytes rfl), take_overwrite payload bytes start start (Nat.le_refl _) inside⟩

/-- Signature and shard are the payload up to its proof. -/
theorem signature_append_shard (place : Nat) (data : place < honest.numData) :
    honest.signature ++ honest.shard place =
      (honest.payload place).take (proofStart (honest.variant place)) := by
  have inside : place < honest.numData + honest.numCoding := by omega
  obtain ⟨-, long, same⟩ := slice_eq_some _ _ _ _ (honest.signed place inside)
  have bound := honest.trailing_le
  have start : signatureSize ≤ proofStart (honest.variant place) := by
    rw [proofStart, proofAndSignatureSize_eq, variant_data honest place data]
    change 64 ≤ 1203 - honest.trailing
    omega
  have front : (honest.payload place).take signatureSize =
      ((honest.payload place).take (proofStart (honest.variant place))).take signatureSize := by
    rw [List.take_take, Nat.min_eq_left start]
  rw [same, shard, if_pos data, List.drop_zero]
  change (honest.payload place).take signatureSize ++ _ = _
  rw [front, List.take_append_drop]

theorem buildData_ok (header : FecSet.RecoveryHeader) (headerOf : honest.HeaderOf header)
    (place : Nat) (data : place < honest.numData) :
    ∃ payload, buildRecoveredMerkleDataPayload header.signature (honest.shard place)
        header.variant header.chainedMerkleRoot = .ok payload ∧ honest.FaithfulAt place payload := by
  obtain ⟨source, -, sameVariant⟩ := headerOf.variant
  have inside : place < honest.total := by unfold total; omega
  have length := honest.length_shard place inside
  have bound := honest.trailing_le
  have trailer := trailerSize_le (honest.variant place) (honest.variant_small place)
  have whole : (honest.signature ++ honest.shard place ++ List.replicate
      (merkleDataPayloadSize - (signatureSize + (honest.shard place).length)) 0).length =
      merkleDataPayloadSize := by
    rw [List.length_append, List.length_append, length_signature, List.length_replicate, length,
      merkleDataPayloadSize, signatureSize]
    omega
  have size : (honest.variant place).payloadSize = merkleDataPayloadSize := by
    rw [variant_data honest place data]
    rfl
  have ends : capacityEnd (honest.variant place) =
      merkleDataPayloadSize - trailerSize (honest.variant place) := by
    rw [capacityEnd, size]
  obtain ⟨written, done, sameLength, sameFront⟩ := writeChainedRoot_ok
    (honest.signature ++ honest.shard place ++ List.replicate
      (merkleDataPayloadSize - (signatureSize + (honest.shard place).length)) 0)
    (merkleDataPayloadSize - trailerSize (honest.variant place)) header.chainedMerkleRoot
    (by
      intro root found
      have facts := headerOf.root root found
      have fits := honest.root_fits place root facts.1 facts.2
      rw [whole]
      rw [merkleDataPayloadSize]
      omega)
    (by rw [whole]; exact Nat.sub_le _ _)
  refine ⟨written, ?_, ?_, ?_⟩
  · rw [buildRecoveredMerkleDataPayload]
    simp only [sameVariant, headerOf.signature, expectedShardSize_variant, length]
    rw [if_neg (by simp), if_neg (by rw [merkleDataPayloadSize, signatureSize]; omega),
      merkleDataCapacity_eq _ (honest.variant_small source),
      honest.trailerSize_variant source place, ← length]
    exact done
  · rw [sameLength, whole, size]
  · intro _
    rw [ends, sameFront, ← ends]
    have before : capacityEnd (honest.variant place) ≤ proofStart (honest.variant place) := by
      rw [← proofStart_eq _ (honest.variant_small place)]
      exact Nat.le_add_right _ _
    have joined := honest.signature_append_shard place data
    have long : capacityEnd (honest.variant place) ≤
        (honest.signature ++ honest.shard place).length := by
      rw [joined, List.length_take, honest.length_data place data]
      refine Nat.le_min.mpr ⟨before, ?_⟩
      rw [ends]
      exact Nat.sub_le _ _
    rw [List.take_append_of_le_length long, joined, List.take_take, Nat.min_eq_left before]

theorem buildCode_ok (header : FecSet.RecoveryHeader) (headerOf : honest.HeaderOf header)
    (coding : CodingHeader) (position : Nat) (within : position < honest.numCoding) :
    ∃ payload, buildRecoveredMerkleCodePayload header.signature coding
        (honest.shard (honest.numData + position)) header.variant header.chainedMerkleRoot =
          .ok payload ∧
      honest.FaithfulAt (honest.numData + position) payload := by
  obtain ⟨source, -, sameVariant⟩ := headerOf.variant
  have inside : honest.numData + position < honest.total := by unfold total; omega
  have length := honest.length_shard _ inside
  have bound := honest.trailing_le
  have trailer := trailerSize_le (honest.variant source) (honest.variant_small source)
  have headerLength : coding.toBytes.length = 24 := by
    simp [CodingHeader.toBytes, leBytes_length]
  have whole : (honest.signature ++ [((honest.variant source).variantByte).getD 0] ++
      coding.toBytes ++ honest.shard (honest.numData + position) ++ List.replicate
        (legacyPayloadSize - (legacyCodingHeadersSize +
          (honest.shard (honest.numData + position)).length)) 0).length = legacyPayloadSize := by
    simp only [List.length_append, length_signature, List.length_replicate, length, headerLength,
      List.length_singleton, legacyPayloadSize, legacyCodingHeadersSize, signatureSize]
    omega
  obtain ⟨written, done, sameLength, -⟩ := writeChainedRoot_ok
    (honest.signature ++ [((honest.variant source).variantByte).getD 0] ++
      coding.toBytes ++ honest.shard (honest.numData + position) ++ List.replicate
        (legacyPayloadSize - (legacyCodingHeadersSize +
          (honest.shard (honest.numData + position)).length)) 0)
    (legacyPayloadSize - trailerSize (honest.variant source)) header.chainedMerkleRoot
    (by
      intro root found
      have facts := headerOf.root root found
      have fits := honest.root_fits source root facts.1 facts.2
      rw [whole, legacyPayloadSize]
      omega)
    (by rw [whole]; exact Nat.sub_le _ _)
  refine ⟨written, ?_, ?_, ?_⟩
  · rw [buildRecoveredMerkleCodePayload]
    simp only [sameVariant, headerOf.signature, expectedShardSize_variant, length]
    rw [if_neg (by simp), if_neg (by rw [legacyPayloadSize, legacyCodingHeadersSize]; omega),
      merkleCodeCapacity_eq _ (honest.variant_small source), ← length]
    exact done
  · rw [sameLength, whole, variant_code]
    rfl
  · intro data
    omega

/-- Every place of the batch gets a payload, the shreds held their own. -/
theorem rebuildPayload_ok (header : FecSet.RecoveryHeader) (headerOf : honest.HeaderOf header)
    (seen : List Shred) (place : Nat) (inside : place < honest.total) :
    ∃ payload, FecSet.rebuildPayload header (honest.placed seen).presentPayloads
        ((List.range honest.total).map (fun other => some (honest.shard other))) place =
          .ok payload ∧
      honest.FaithfulAt place payload ∧
      (honest.shred place ∈ seen → payload = honest.payload place) := by
  have present : (honest.placed seen).presentPayloads.getD place none =
      if honest.shred place ∈ seen then some (honest.payload place) else none :=
    getD_map_range _ _ _ _ inside
  have shard : ((List.range honest.total).map (fun other => some (honest.shard other))).getD
      place none = some (honest.shard place) := getD_map_range _ _ _ _ inside
  rw [FecSet.rebuildPayload, present]
  by_cases here : honest.shred place ∈ seen
  · rw [if_pos here]
    exact ⟨honest.payload place, rfl, ⟨honest.length_payload place inside, fun _ => rfl⟩,
      fun _ => rfl⟩
  · rw [if_neg here]
    simp only [headerOf.codingMeta, shard, orError, ok_bind]
    by_cases data : place < honest.numData
    · rw [if_pos data]
      obtain ⟨payload, done, faithful⟩ := honest.buildData_ok header headerOf place data
      exact ⟨payload, done, faithful, fun held => absurd held here⟩
    · rw [if_neg data]
      obtain ⟨position, rfl⟩ : ∃ position, place = honest.numData + position :=
        ⟨place - honest.numData, by omega⟩
      have within : position < honest.numCoding := by
        unfold total at inside
        omega
      obtain ⟨payload, done, faithful⟩ := honest.buildCode_ok header headerOf _ position within
      exact ⟨payload, done, faithful, fun held => absurd held here⟩

theorem merkleNode_ok (payload : Bytes) (place : Nat)
    (fits : proofStart (honest.variant place) ≤ payload.length) :
    merkleNode ledger payload (honest.variant place) =
      .ok (leafNode ledger payload (honest.variant place)) := by
  have bound := honest.trailing_le
  have size := le_payloadSize (honest.variant place)
  have start : signatureSize ≤ proofStart (honest.variant place) := by
    rw [proofStart, proofAndSignatureSize_eq]
    rw [merkleDataPayloadSize] at size
    rw [signatureSize]
    omega
  rw [merkleNode, merkleProofOffset_eq _ (honest.variant_merkle place)
    (honest.variant_small place)]
  simp only [slice_of_le payload signatureSize _ start fits]
  rfl

/-- A batch rebuilt from an honest set through the variant of the shred at `source`. -/
structure BatchOf (source : Nat) (batch : FecSet.RebuiltBatch) : Prop where
  header : honest.HeaderOf batch.header
  variant : batch.header.variant = honest.variant source
  present : batch.presentPayloads = (honest.placed set.allShreds).presentPayloads
  length : batch.fullPayloads.length = honest.total
  faithful : ∀ place < honest.total,
    honest.FaithfulAt place (batch.fullPayloads.getD place [])
  held : ∀ place < honest.total, honest.shred place ∈ set.allShreds →
    batch.fullPayloads.getD place [] = honest.payload place
  nodes : batch.nodes = batch.fullPayloads.map (fun payload =>
    leafNode ledger payload (honest.variant source))

variable (restores : honest.Restores) (holds : honest.Holds set)
  (coding : set.codingShreds.entries.length ≠ 0)
  (enough : honest.numData ≤ set.allShreds.length) (source : Nat) (inside : source < honest.total)
  (found : set.recoveryVariant = some (honest.variant source))

include restores holds coding enough inside found

theorem rebuildBatch_ok (fits : proofStart (honest.variant source) ≤ merkleDataPayloadSize) :
    ∃ batch, set.rebuildBatch ledger = .ok batch ∧ honest.BatchOf set source batch := by
  obtain ⟨header, headerDone, headerOf, sameVariant⟩ :=
    honest.recoveryHeader_ok set holds coding source inside found
  obtain ⟨outputs, done, each⟩ := mapM_exists
    (fun index => do
      let payload ← FecSet.rebuildPayload header (honest.placed set.allShreds).presentPayloads
        ((List.range honest.total).map (fun other => some (honest.shard other))) index
      let node ← merkleNode ledger payload header.variant
      return (payload, node))
    (fun place output => honest.FaithfulAt place output.1 ∧
      (honest.shred place ∈ set.allShreds → output.1 = honest.payload place) ∧
      output.2 = leafNode ledger output.1 (honest.variant source))
    (List.range honest.total) (by
      intro place member
      obtain ⟨payload, rebuilt, faithful, own⟩ := honest.rebuildPayload_ok header headerOf
        set.allShreds place (List.mem_range.mp member)
      refine ⟨(payload, leafNode ledger payload (honest.variant source)), ?_, faithful, own, rfl⟩
      have long : proofStart (honest.variant source) ≤ payload.length := by
        rw [faithful.1]
        exact Nat.le_trans fits (le_payloadSize _)
      rw [rebuilt, ok_bind, sameVariant, honest.merkleNode_ok payload source long]
      rfl)
  have places := forall₂_range _ _ _ each
  have firstOf : ∀ place < honest.total,
      (outputs.map Prod.fst).getD place [] = (outputs.getD place ([], default)).1 := by
    intro place within
    rw [List.getD_eq_getElem?_getD, List.getElem?_map,
      List.getElem?_eq_getElem (by rw [places.1]; exact within), List.getD_eq_getElem?_getD,
      List.getElem?_eq_getElem (by rw [places.1]; exact within)]
    rfl
  refine ⟨⟨header, (honest.placed set.allShreds).presentPayloads, outputs.map Prod.fst,
    outputs.map Prod.snd⟩, ?_, headerOf, sameVariant, rfl, ?_, ?_, ?_, ?_⟩
  · rw [FecSet.rebuildBatch, headerDone, ok_bind, headerOf.codingMeta]
    have placedAll := honest.placeAll set holds header.slot header.fecSetIndex
    rw [total] at placedAll
    dsimp only
    rw [placedAll, ok_bind, restores.1]
    dsimp only
    rw [honest.reconstruct_placed set restores holds enough]
    dsimp only
    rw [total] at done
    rw [total, done]
    rfl
  · rw [List.length_map]
    exact places.1
  · intro place within
    dsimp only
    rw [firstOf place within]
    exact (places.2 place within _).1
  · intro place within member
    dsimp only
    rw [firstOf place within]
    exact (places.2 place within _).2.1 member
  · dsimp only
    rw [List.map_map]
    apply List.map_congr_left
    intro output member
    obtain ⟨place, -, -, -, same⟩ := exists_of_forall₂ _ _ _ each output member
    exact same

omit restores holds coding enough inside found

/-- A recovered shred has the lost shred's place, headers and data. -/
structure Restored (place : Nat) (shred : Shred) : Prop where
  data : shred.isData = true
  slot : shred.slot = honest.slot
  index : shred.index = honest.fecSetIndex + place
  length : shred.payload.length = merkleDataPayloadSize
  sameData : shred.payload.take (capacityEnd (honest.variant place)) =
    (honest.payload place).take (capacityEnd (honest.variant place))

/-- The places of the data shreds that are not there. -/
def missing : List Nat :=
  (List.range honest.numData).filter (fun place => decide (honest.shred place ∉ set.allShreds))

theorem setMerkleProof_ok (nodes : List Hash) (length : nodes.length = honest.total)
    (payload : Bytes) (source place : Nat)
    (fits : proofStart (honest.variant source) + honest.proofSize * merkleProofEntrySize ≤
      payload.length) :
    setMerkleProof payload (honest.variant source) (MerkleTree.proof ledger nodes place) =
      .ok (overwrite payload (proofStart (honest.variant source))
        (MerkleTree.proof ledger nodes place).flatten) := by
  have size : (MerkleTree.proof ledger nodes place).length = honest.proofSize := by
    rw [MerkleTree.length_proof, length, honest.depth, total]
  rw [setMerkleProof, merkleProofOffset_eq _ (honest.variant_merkle source)
    (honest.variant_small source)]
  dsimp only
  rw [if_neg (by rw [size, variant_proofSize]; simp), if_neg (by rw [size]; omega)]

theorem finishShred_ok (parses : honest.Parses) (nodes : List Hash)
    (length : nodes.length = honest.total) (place : Nat) (data : place < honest.numData)
    (payload : Bytes) (faithful : honest.FaithfulAt place payload) (source : Nat)
    (fits : proofStart (honest.variant source) + honest.proofSize * merkleProofEntrySize ≤
      merkleDataPayloadSize)
    (behind : capacityEnd (honest.variant place) ≤ proofStart (honest.variant source)) :
    ∃ shred, FecSet.finishShred ledger (honest.variant source) honest.total
        (makeMerkleTree ledger nodes) place payload = .ok shred ∧ honest.Restored place shred ∧
      shred.payload = overwrite payload (proofStart (honest.variant source))
        (MerkleTree.proof ledger nodes place).flatten := by
  have inside : place < honest.total := by unfold total; omega
  have size : payload.length = merkleDataPayloadSize := by
    rw [faithful.1, variant_data honest place data]
    rfl
  have entries : (MerkleTree.proof ledger nodes place).flatten.length =
      honest.proofSize * merkleProofEntrySize := by
    rw [MerkleTree.length_flatten_proof, length, honest.depth, total]
  have written : proofStart (honest.variant source) +
      (MerkleTree.proof ledger nodes place).flatten.length ≤ payload.length := by
    rw [entries, size]
    exact fits
  have proof := MerkleTree.makeMerkleProof_eq ledger nodes place (by rw [length]; exact inside)
  have newLength := length_overwrite payload _ _ written
  have newFront := take_overwrite payload (MerkleTree.proof ledger nodes place).flatten
    (proofStart (honest.variant source)) (capacityEnd (honest.variant place)) behind
    (by omega)
  obtain ⟨shred, parsed, samePayload, isData, sameSlot, sameIndex⟩ := parses place data
    (overwrite payload (proofStart (honest.variant source))
      (MerkleTree.proof ledger nodes place).flatten)
    (newLength.trans size) (newFront.trans (faithful.2 data))
  refine ⟨shred, ?_, ⟨isData, sameSlot, ?_, ?_, ?_⟩, samePayload⟩
  · rw [length] at proof
    rw [FecSet.finishShred, proof]
    simp only [orError, ok_bind]
    rw [honest.setMerkleProof_ok nodes length payload source place (by rw [size]; exact fits),
      ok_bind, parsed]
    rfl
  · rw [sameIndex, honest.dataIndex place data]
  · rw [samePayload, newLength, size]
  · rw [samePayload, newFront, faithful.2 data]

theorem missing_eq (batch : FecSet.RebuiltBatch) (batchOf : honest.BatchOf set source batch) :
    (List.range honest.numData).filter
        (fun index => (batch.presentPayloads.getD index none).isNone) = honest.missing set := by
  apply List.filter_congr
  intro place member
  have inside : place < honest.total := by
    have data := List.mem_range.mp member
    unfold total
    omega
  have here : batch.presentPayloads.getD place none =
      if honest.shred place ∈ set.allShreds then some (honest.payload place) else none := by
    rw [batchOf.present]
    exact getD_map_range _ _ _ _ inside
  rw [here]
  by_cases present : honest.shred place ∈ set.allShreds
  · simp [present]
  · simp [present]

include restores holds coding enough inside found

/-- Where the proofs fit behind the data, recovery succeeds. -/
theorem maybeRecoverMerkle_ok (parses : honest.Parses)
    (fits : proofStart (honest.variant source) + honest.proofSize * merkleProofEntrySize ≤
      merkleDataPayloadSize)
    (behind : ∀ place < honest.numData,
      capacityEnd (honest.variant place) ≤ proofStart (honest.variant source)) :
    ∃ batch recovered, set.rebuildBatch ledger = .ok batch ∧ honest.BatchOf set source batch ∧
      set.maybeRecoverMerkle ledger = .ok recovered ∧
      List.Forall₂ (fun place shred => honest.Restored place shred ∧
        shred.payload = overwrite (batch.fullPayloads.getD place [])
          (proofStart (honest.variant source))
          (MerkleTree.proof ledger batch.nodes place).flatten)
        (honest.missing set) recovered := by
  obtain ⟨batch, done, batchOf⟩ := honest.rebuildBatch_ok set restores holds coding enough source
    inside found (Nat.le_trans (Nat.le_add_right _ _) fits)
  have nodeCount : batch.nodes.length = honest.total := by
    rw [batchOf.nodes, List.length_map, batchOf.length]
  obtain ⟨recovered, recoveredAll, each⟩ := mapM_exists
    (fun index => FecSet.finishShred ledger (honest.variant source) honest.total
      (makeMerkleTree ledger batch.nodes) index (batch.fullPayloads.getD index []))
    (fun place shred => honest.Restored place shred ∧
      shred.payload = overwrite (batch.fullPayloads.getD place [])
        (proofStart (honest.variant source))
        (MerkleTree.proof ledger batch.nodes place).flatten)
    (honest.missing set) (by
      intro place member
      have data := List.mem_range.mp (List.mem_filter.mp member).1
      have within : place < honest.total := by unfold total; omega
      exact honest.finishShred_ok parses batch.nodes nodeCount place data _
        (batchOf.faithful place within) source fits (behind place data))
  refine ⟨batch, recovered, done, batchOf, ?_, each⟩
  rw [FecSet.maybeRecoverMerkle, done, ok_bind]
  dsimp only
  rw [batchOf.header.codingMeta, batchOf.variant]
  dsimp only
  rw [honest.missing_eq set source batch batchOf]
  exact recoveredAll

end HonestFecSet

end Helios
