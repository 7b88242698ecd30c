import Helios.RecoveryOutcome

/-! The Merkle proofs of recovered data shreds. -/

namespace Helios.HonestFecSet

open Machine

def leafNodes (ledger : Ledger) (leaves : List Bytes) : List Hash :=
  leaves.map (fun leaf => ledger.hashv [merkleHashPrefixLeaf, leaf])

/-- Everything that is hashed to build a tree over the given leaf strings. -/
def hashedStrings (ledger : Ledger) (leaves : List Bytes) : List Bytes :=
  leaves.map (merkleHashPrefixLeaf ++ ·) ++
    (Merkle.allPairs proofEntry (joinEntries ledger) (leafNodes ledger leaves)).map
      (fun pair => merkleHashPrefixNode ++ pair.1 ++ pair.2)

/-- No string of one list shares the digest bytes a proof keeps with another string
of the other list. -/
def NoCollision (ledger : Ledger) (first second : List Bytes) : Prop :=
  ∀ left ∈ first, ∀ right ∈ second,
    proofEntry (ledger.sha256 left) = proofEntry (ledger.sha256 right) → left = right

/-- The strings the recovery hashes to its leaves. -/
def rebuiltLeaves (batch : FecSet.RebuiltBatch) : List Bytes :=
  batch.fullPayloads.map (fun payload => leafString payload batch.header.variant)

theorem eq_of_flatten (width : Nat) (first second : List Bytes)
    (firstWidth : ∀ entry ∈ first, entry.length = width)
    (secondWidth : ∀ entry ∈ second, entry.length = width)
    (sameLength : first.length = second.length)
    (same : first.flatten = second.flatten) : first = second := by
  induction first generalizing second with
  | nil => exact (List.eq_nil_of_length_eq_zero sameLength.symm).symm
  | cons entry rest ih =>
      cases second with
      | nil => cases sameLength
      | cons other others =>
          rw [List.flatten_cons, List.flatten_cons] at same
          have widths : entry.length = other.length :=
            (firstWidth entry List.mem_cons_self).trans
              (secondWidth other List.mem_cons_self).symm
          obtain ⟨sameEntry, sameRest⟩ := List.append_inj same widths
          rw [sameEntry, ih others (fun next member => firstWidth next
            (List.mem_cons_of_mem _ member)) (fun next member => secondWidth next
            (List.mem_cons_of_mem _ member)) (Nat.succ.inj sameLength) sameRest]

section

variable (ledger : Ledger) (first second : List Bytes)

/-- Two trees with the same proof for one leaf have the same string at every other
leaf, if the hash does not collide on what they hash. -/
theorem leaf_of_same_proof (index other : Nat) (sameLength : first.length = second.length)
    (sameProof : MerkleTree.proof ledger (leafNodes ledger first) index =
      MerkleTree.proof ledger (leafNodes ledger second) index)
    (noCollision : NoCollision ledger (hashedStrings ledger first) (hashedStrings ledger second))
    (inside : index < first.length) (elsewhere : other ≠ index) (left right : Bytes)
    (foundLeft : first[other]? = some left) (foundRight : second[other]? = some right) :
    left = right := by
  have pairsDiffer : ∀ pair ∈ Merkle.allPairs proofEntry (joinEntries ledger)
        (leafNodes ledger first),
      ∀ twin ∈ Merkle.allPairs proofEntry (joinEntries ledger) (leafNodes ledger second),
      proofEntry (joinEntries ledger pair.1 pair.2) = proofEntry (joinEntries ledger twin.1 twin.2) →
        pair = twin := by
    intro pair member twin twinMember same
    have strings := noCollision (merkleHashPrefixNode ++ pair.1 ++ pair.2)
      (List.mem_append_right _ (List.mem_map.mpr ⟨pair, member, rfl⟩))
      (merkleHashPrefixNode ++ twin.1 ++ twin.2)
      (List.mem_append_right _ (List.mem_map.mpr ⟨twin, twinMember, rfl⟩))
      (by simpa [joinEntries, Ledger.hashv] using same)
    obtain ⟨a, b, rfl⟩ := Merkle.mem_allPairs proofEntry (joinEntries ledger) _ pair member
    obtain ⟨c, d, rfl⟩ := Merkle.mem_allPairs proofEntry (joinEntries ledger) _ twin twinMember
    rw [List.append_assoc, List.append_assoc] at strings
    have tails := List.append_cancel_left strings
    obtain ⟨sameLeft, sameRight⟩ := List.append_inj tails
      ((MerkleTree.length_proofEntry a).trans (MerkleTree.length_proofEntry c).symm)
    exact Prod.ext sameLeft sameRight
  have nodeLeft : (leafNodes ledger first)[other]? =
      some (ledger.hashv [merkleHashPrefixLeaf, left]) := by
    rw [leafNodes, List.getElem?_map, foundLeft]
    rfl
  have nodeRight : (leafNodes ledger second)[other]? =
      some (ledger.hashv [merkleHashPrefixLeaf, right]) := by
    rw [leafNodes, List.getElem?_map, foundRight]
    rfl
  have bound := Merkle.proof_binds proofEntry (joinEntries ledger) (leafNodes ledger first)
    (leafNodes ledger second) index (by simp [leafNodes, sameLength]) sameProof pairsDiffer
    (by simpa [leafNodes] using inside) other elsewhere _ _ nodeLeft nodeRight
  have strings := noCollision (merkleHashPrefixLeaf ++ left)
    (List.mem_append_left _ (List.mem_map.mpr ⟨left, List.mem_of_getElem? foundLeft, rfl⟩))
    (merkleHashPrefixLeaf ++ right)
    (List.mem_append_left _ (List.mem_map.mpr ⟨right, List.mem_of_getElem? foundRight, rfl⟩))
    (by simpa [Ledger.hashv] using bound)
  exact List.append_cancel_left strings

end

variable {ledger : Ledger} (honest : HonestFecSet ledger) (set : FecSet)

/-- The strings the leader hashed to the leaves of the set. -/
def leaves : List Bytes :=
  (List.range honest.total).map (fun place =>
    leafString (honest.payload place) (honest.variant place))

theorem nodes_eq : honest.nodes = leafNodes ledger honest.leaves := by
  rw [nodes, leafNodes, leaves, List.map_map]
  rfl

/-- The leaf of the first coding shred is hashed over 25 bytes less than the leader
hashed, so no rebuilt proof is the right one. -/
theorem rebuilt_payload_differs (batch : FecSet.RebuiltBatch) (source : Nat)
    (sourceData : source < honest.numData) (batchOf : honest.BatchOf set source batch)
    (noCollision : NoCollision ledger (hashedStrings ledger honest.leaves)
      (hashedStrings ledger (rebuiltLeaves batch)))
    (place : Nat) (data : place < honest.numData) :
    overwrite (batch.fullPayloads.getD place []) (proofStart (honest.variant source))
        (MerkleTree.proof ledger batch.nodes place).flatten ≠ honest.payload place := by
  intro same
  have coding := honest.someCoding
  have bound := honest.trailing_le
  have inside : place < honest.total := by unfold total; omega
  have codeIn : honest.numData < honest.total := by unfold total; omega
  have sameVariant : honest.variant source = honest.variant place := by
    rw [variant_data honest source sourceData, variant_data honest place data]
  have batchNodes : batch.nodes = leafNodes ledger (rebuiltLeaves batch) := by
    rw [batchOf.nodes, leafNodes, rebuiltLeaves, batchOf.variant, List.map_map]
    rfl
  have batchCount : batch.nodes.length = honest.total := by
    rw [batchOf.nodes, List.length_map, batchOf.length]
  have honestCount : honest.nodes.length = honest.total := by
    rw [nodes, List.length_map, List.length_range]
  have size : (batch.fullPayloads.getD place []).length = merkleDataPayloadSize := by
    rw [(batchOf.faithful place inside).1, variant_data honest place data]
    rfl
  have entries : (MerkleTree.proof ledger batch.nodes place).flatten.length =
      honest.proofSize * merkleProofEntrySize := by
    rw [MerkleTree.length_flatten_proof, batchCount, honest.depth, total]
  have written := slice_overwrite (batch.fullPayloads.getD place [])
    (MerkleTree.proof ledger batch.nodes place).flatten (proofStart (honest.variant source))
    (by rw [entries, size]; exact honest.fits_data source sourceData)
  have sameProof : MerkleTree.proof ledger honest.nodes place =
      MerkleTree.proof ledger batch.nodes place := by
    apply eq_of_flatten merkleProofEntrySize _ _ (MerkleTree.mem_proof_length ledger _ _)
      (MerkleTree.mem_proof_length ledger _ _)
    · rw [MerkleTree.length_proof, MerkleTree.length_proof, honestCount, batchCount]
    · have lost := honest.proven place inside
      rw [same, entries, sameVariant] at written
      exact Option.some.inj (lost.symm.trans written)
  rw [nodes_eq, batchNodes] at sameProof
  have leafHere : honest.leaves[honest.numData]? =
      some (leafString (honest.payload honest.numData) (honest.variant honest.numData)) := by
    rw [leaves, List.getElem?_map, List.getElem?_range codeIn]
    rfl
  have leafThere : (rebuiltLeaves batch)[honest.numData]? =
      some (leafString (batch.fullPayloads.getD honest.numData []) (honest.variant source)) := by
    rw [rebuiltLeaves, List.getElem?_map, List.getElem?_eq_getElem
      (by rw [batchOf.length]; exact codeIn), batchOf.variant, List.getD_eq_getElem?_getD,
      List.getElem?_eq_getElem (by rw [batchOf.length]; exact codeIn)]
    rfl
  have sameLeaf := leaf_of_same_proof ledger honest.leaves (rebuiltLeaves batch) place
    honest.numData (by rw [leaves, rebuiltLeaves, List.length_map, List.length_map,
      List.length_range, batchOf.length]) sameProof noCollision
    (by rw [leaves, List.length_map, List.length_range]; exact inside) (by omega) _ _
    leafHere leafThere
  -- 64 bytes of signature are skipped on both sides; the ends differ by 25
  have lengths := congrArg List.length sameLeaf
  have codeVariant : honest.variant honest.numData = honest.variant (honest.numData + 0) := rfl
  rw [leafString, leafString, List.length_drop, List.length_take, List.length_drop,
    List.length_take, (batchOf.faithful honest.numData codeIn).1,
    honest.length_payload honest.numData codeIn, proofStart_data honest source sourceData,
    codeVariant, proofStart_code honest 0, variant_code honest 0, signatureSize] at lengths
  change min (1228 - honest.trailing) 1228 - 64 = min (1203 - honest.trailing) 1228 - 64 at lengths
  omega

/-- Every payload recovered from a set with a data and a coding shred is the lost one
if and only if none was lost. -/
theorem payloads_restored_iff (restores : honest.Restores) (parses : honest.Parses)
    (holds : honest.Holds set)
    (someData : set.dataShreds.entries.length ≠ 0)
    (someCoding : set.codingShreds.entries.length ≠ 0)
    (enough : honest.numData ≤ set.dataShreds.entries.length + set.codingShreds.entries.length)
    (noCollision : ∀ batch, set.rebuildBatch ledger = .ok batch →
      NoCollision ledger (hashedStrings ledger honest.leaves)
        (hashedStrings ledger (rebuiltLeaves batch))) :
    (∃ recovered, set.maybeRecoverMerkle ledger = .ok recovered ∧
        List.Forall₂ (fun place shred => shred.payload = honest.payload place)
          (honest.missing set) recovered) ↔
      honest.missing set = [] := by
  obtain ⟨source, sourceData, found⟩ := honest.recoveryVariant_data set holds someData
  rw [← length_allShreds] at enough
  obtain ⟨batch, recovered, rebuilt, batchOf, done, each⟩ := honest.maybeRecoverMerkle_ok set
    restores holds someCoding enough source (by unfold total; omega) found parses
    (honest.fits_data source sourceData)
    (fun place data => by
      rw [honest.proofStart_data source sourceData]
      exact honest.capacityEnd_data_le place data)
  constructor
  · intro ⟨returned, returnedDone, same⟩
    obtain rfl : recovered = returned := Except.ok.inj (done.symm.trans returnedDone)
    cases lost : honest.missing set with
    | nil => rfl
    | cons place rest =>
        rw [lost] at each same
        cases recovered with
        | nil => cases each
        | cons shred others =>
            have wrong := (List.forall₂_cons.mp each).1.2
            have right := (List.forall₂_cons.mp same).1
            have member : place ∈ honest.missing set := by
              rw [lost]
              exact List.mem_cons_self
            have data := List.mem_range.mp (List.mem_filter.mp member).1
            exact absurd (wrong.symm.trans right) (honest.rebuilt_payload_differs set batch source
              sourceData batchOf (noCollision batch rebuilt) place data)
  · intro nothing
    rw [nothing] at each
    cases each
    exact ⟨[], done, by rw [nothing]; exact List.Forall₂.nil⟩

/-- The first data and the first coding shred of the batch. -/
def oneOfEach : FecSet :=
  { dataShreds := HashMap.empty.insert 0 (sampleShred 0)
    codingShreds := HashMap.empty.insert 0 (sampleShred 2)
    codingMeta := some ⟨2, 2, 0⟩ }

theorem oneOfEach_holds : sampleSet.Holds oneOfEach := by
  refine ⟨?_, ?_, rfl⟩
  · intro index shred found
    rw [oneOfEach] at found
    dsimp only at found
    by_cases zero : index = 0
    · subst zero
      rw [HashMap.get_insert, Option.some.injEq] at found
      exact ⟨0, by decide, found.symm, by rw [← found]; rfl⟩
    · rw [HashMap.get_insert_ne _ _ _ _ zero] at found
      simp at found
  · intro index shred found
    rw [oneOfEach] at found
    dsimp only at found
    by_cases zero : index = 0
    · subst zero
      rw [HashMap.get_insert, Option.some.injEq] at found
      exact ⟨0, by decide, found.symm, by rw [← found]; rfl⟩
    · rw [HashMap.get_insert_ne _ _ _ _ zero] at found
      simp at found

/-- Data shred 1 comes back with a proof that is not the lost one's. -/
theorem recovered_proof_is_wrong : sampleSet.Holds oneOfEach ∧
    (oneOfEach.maybeRecoverMerkle sampleLedger).map (fun shreds => shreds.map (fun shred =>
      (shred.index, decide (shred.payload = (sampleShred 1).payload)))) = .ok [(1, false)] :=
  ⟨oneOfEach_holds, by decide +kernel⟩

theorem oneOfEach_noCollision (batch : FecSet.RebuiltBatch)
    (rebuilt : oneOfEach.rebuildBatch sampleLedger = .ok batch) :
    NoCollision sampleLedger (hashedStrings sampleLedger sampleSet.leaves)
      (hashedStrings sampleLedger (rebuiltLeaves batch)) := by
  have computed : (oneOfEach.rebuildBatch sampleLedger).map rebuiltLeaves = .ok
      [sampleBody 0, sampleBody 1, (sampleBody 2).take 1099,
        ([0x82] ++ sampleCodingHeader 1 ++ sampleShard 3).take 1099] := by decide +kernel
  have lost : sampleSet.leaves = [sampleBody 0, sampleBody 1, sampleBody 2, sampleBody 3] := by
    decide +kernel
  rw [rebuilt] at computed
  rw [Except.ok.inj computed, lost]
  unfold NoCollision
  decide +kernel

theorem payloads_restored_iff_oneOfEach :
    (∃ recovered, oneOfEach.maybeRecoverMerkle sampleLedger = .ok recovered ∧
        List.Forall₂ (fun place shred => shred.payload = sampleSet.payload place)
          (sampleSet.missing oneOfEach) recovered) ↔
      sampleSet.missing oneOfEach = [] :=
  payloads_restored_iff sampleSet oneOfEach sampleSet_restores sampleSet_parses oneOfEach_holds
    (by decide +kernel) (by decide +kernel) (by decide +kernel) oneOfEach_noCollision

end Helios.HonestFecSet
