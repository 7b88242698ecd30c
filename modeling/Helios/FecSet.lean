import Helios.Shred

/-! FEC sets and the recovery of their missing data shreds. -/

namespace Helios

open Machine

/-- What the assembler uses of other crates: the shred parser, legacy recovery,
deshredding, Reed-Solomon codes and SHA-256. Errors are the texts they print. -/
structure Ledger where
  newFromSerializedShred : Bytes → Except String Shred
  tryRecovery : List Shred → Except String (List Shred)
  deshred : List Shred → Except String Bytes
  newReedSolomon : Nat → Nat → Except String Unit
  reconstruct : Nat → Nat → List (Option Bytes) → Except String (List (Option Bytes))
  sha256 : Bytes → Hash

/-- `hashv` hashes its slices one after the other. -/
def Ledger.hashv (ledger : Ledger) (slices : List Bytes) : Hash := ledger.sha256 slices.flatten

def merkleHashPrefixLeaf : Bytes := 0x00 :: "SOLANA_MERKLE_SHREDS_LEAF".toUTF8.toList
def merkleHashPrefixNode : Bytes := 0x01 :: "SOLANA_MERKLE_SHREDS_NODE".toUTF8.toList

def checkedSub (a b : Nat) : Option Nat := if b ≤ a then some (a - b) else none

def orError {α : Type} (message : String) : Option α → Except String α
  | some value => .ok value
  | none => .error message

def erasureShardIndex (payload : Bytes) : Option Nat :=
  match RecoveryVariant.fromPayload payload with
  | none => none
  | some variant =>
      if variant.isData then
        match parseU32 payload indexOffset, parseU32 payload fecSetIndexOffset with
        | .ok index, .ok fecSetIndex => checkedSub index fecSetIndex
        | _, _ => none
      else
        match parseU16 payload codingNumDataOffset, parseU16 payload codingPositionOffset with
        | .ok numData, .ok position => some (numData + position)
        | _, _ => none

/-- What stands behind the shard of a Merkle shred. -/
def trailerSize (variant : RecoveryVariant) : Nat :=
  (if variant.chained then merkleRootSize else 0) + variant.proofSize * merkleProofEntrySize
    + (if variant.resigned then signatureSize else 0)

def merkleCodeCapacity (variant : RecoveryVariant) : Except String Nat :=
  orError "invalid merkle code capacity"
    (checkedSub legacyPayloadSize (legacyCodingHeadersSize + trailerSize variant))

def merkleDataCapacity (variant : RecoveryVariant) : Except String Nat :=
  orError "invalid merkle data capacity"
    (checkedSub merkleDataPayloadSize (legacyDataHeadersSize + trailerSize variant))

/-- The end of headers and capacity, where a chained root starts. -/
def chainedRootOffset (variant : RecoveryVariant) : Except String Nat :=
  if variant.isData then (merkleDataCapacity variant).map (legacyDataHeadersSize + ·)
  else (merkleCodeCapacity variant).map (legacyCodingHeadersSize + ·)

def merkleProofOffset (variant : RecoveryVariant) : Except String Nat :=
  (chainedRootOffset variant).map (· + if variant.chained then merkleRootSize else 0)

def erasureShardBytes (payload : Bytes) : Except String Bytes :=
  match RecoveryVariant.fromPayload payload with
  | none => .error "unknown shred variant while extracting erasure shard"
  | some .legacyData =>
      if payload.length ≠ legacyPayloadSize then
        .error s!"invalid legacy data payload size {payload.length}"
      else .ok (payload.take legacyErasureShardSize)
  | some .legacyCode =>
      if payload.length ≠ legacyPayloadSize then
        .error s!"invalid legacy code payload size {payload.length}"
      else .ok (payload.drop legacyCodingHeadersSize)
  | some (.merkleData proofSize chained resigned) =>
      (merkleProofOffset (.merkleData proofSize chained resigned)).map
        (fun offset => (payload.take offset).drop signatureSize)
  | some (.merkleCode proofSize chained resigned) =>
      (merkleProofOffset (.merkleCode proofSize chained resigned)).map
        (fun offset => (payload.take offset).drop legacyCodingHeadersSize)

def extractChainedMerkleRoot (payload : Bytes) (variant : RecoveryVariant) : Option Bytes :=
  if variant.chained then
    match chainedRootOffset variant with
    | .error _ => none
    | .ok offset => slice payload offset (offset + merkleRootSize)
  else none

def expectedShardSize (variant : RecoveryVariant) : Nat :=
  legacyPayloadSize - (legacyCodingHeadersSize + variant.proofSize * merkleProofEntrySize
    + (if variant.resigned then signatureSize else 0))

def writeChainedRoot (payload : Bytes) (offset : Except String Nat) :
    Option Bytes → Except String Bytes
  | none => .ok payload
  | some root => offset.map (fun start => overwrite payload start root)

def buildRecoveredMerkleDataPayload (signature shard : Bytes) (variant : RecoveryVariant)
    (chainedMerkleRoot : Option Bytes) : Except String Bytes :=
  let shardSize := shard.length
  let expected := expectedShardSize variant
  if shardSize ≠ expected then
    .error (s!"unexpected recovered merkle data shard size {shardSize}, expected {expected} " ++
      s!"(proof_size={variant.proofSize}, chained={variant.chained}, " ++
      s!"resigned={variant.resigned})")
  else if merkleDataPayloadSize < shardSize + signatureSize then
    .error s!"merkle data shard too large: {shardSize}"
  else
    writeChainedRoot
      (signature ++ shard ++
        List.replicate (merkleDataPayloadSize - (signatureSize + shardSize)) 0)
      ((merkleDataCapacity variant).map (legacyDataHeadersSize + ·)) chainedMerkleRoot

structure CodingHeader where
  slot : Nat
  index : Nat
  version : Nat
  fecSetIndex : Nat
  numDataShreds : Nat
  numCodingShreds : Nat
  position : Nat

def CodingHeader.toBytes (header : CodingHeader) : Bytes :=
  leBytes 8 header.slot ++ leBytes 4 header.index ++ leBytes 2 header.version ++
    leBytes 4 header.fecSetIndex ++ leBytes 2 header.numDataShreds ++
    leBytes 2 header.numCodingShreds ++ leBytes 2 header.position

def buildRecoveredMerkleCodePayload (signature : Bytes) (header : CodingHeader) (shard : Bytes)
    (variant : RecoveryVariant) (chainedMerkleRoot : Option Bytes) : Except String Bytes :=
  let shardSize := shard.length
  let expected := expectedShardSize variant
  if shardSize ≠ expected then
    .error (s!"unexpected recovered merkle code shard size {shardSize}, expected {expected} " ++
      s!"(proof_size={variant.proofSize}, chained={variant.chained}, " ++
      s!"resigned={variant.resigned})")
  else if legacyPayloadSize < shardSize + legacyCodingHeadersSize then
    .error s!"merkle code shard too large: {shardSize}"
  else
    writeChainedRoot
      (signature ++ [(variant.variantByte).getD 0] ++ header.toBytes ++ shard ++
        List.replicate (legacyPayloadSize - (legacyCodingHeadersSize + shardSize)) 0)
      ((merkleCodeCapacity variant).map (legacyCodingHeadersSize + ·)) chainedMerkleRoot

section

variable (ledger : Ledger)

def merkleNode (payload : Bytes) (variant : RecoveryVariant) : Except String Hash :=
  match merkleProofOffset variant with
  | .error message => .error message
  | .ok proofOffset =>
      match slice payload signatureSize proofOffset with
      | none => .error "invalid merkle node slice"
      | some node => .ok (ledger.hashv [merkleHashPrefixLeaf, node])

/-- The part of a node that enters its parent and the proofs. -/
def proofEntry (node : Hash) : Bytes := node.val.take merkleProofEntrySize

def joinEntries (left right : Bytes) : Hash := ledger.hashv [merkleHashPrefixNode, left, right]

def joinNodes (node other : Hash) : Hash :=
  joinEntries ledger (proofEntry node) (proofEntry other)

instance : Inhabited Hash := ⟨⟨List.replicate 32 0, by simp⟩⟩

/-- The nodes pushed by one pass over the level of `size` nodes from `offset`. -/
def nextLevel (nodes : List Hash) (offset size : Nat) : List Hash :=
  (List.range ((size + 1) / 2)).map (fun step =>
    let index := offset + 2 * step
    joinNodes ledger (nodes.getD index default)
      (nodes.getD (min (index + 1) (offset + size - 1)) default))

def growMerkleTree : Nat → List Hash → Nat → List Hash
  | 0, nodes, _ => nodes
  | fuel + 1, nodes, size =>
      if 1 < size then
        let offset := nodes.length - size
        let grown := nodes ++ nextLevel ledger nodes offset size
        growMerkleTree fuel grown (grown.length - offset - size)
      else nodes

def makeMerkleTree (nodes : List Hash) : List Hash :=
  growMerkleTree ledger nodes.length nodes nodes.length

def collectMerkleProof (tree : List Hash) : Nat → Nat → Nat → Nat → Option (List Bytes)
  | 0, _, _, offset => if offset + 1 = tree.length then some [] else none
  | fuel + 1, index, size, offset =>
      if 1 < size then
        match tree[offset + min (index ^^^ 1) (size - 1)]? with
        | none => none
        | some node =>
            (collectMerkleProof tree fuel (index / 2) ((size + 1) / 2) (offset + size)).map
              (proofEntry node :: ·)
      else if offset + 1 = tree.length then some [] else none

def makeMerkleProof (index size : Nat) (tree : List Hash) : Option (List Bytes) :=
  if size ≤ index then none else collectMerkleProof tree size index size 0

def setMerkleProof (payload : Bytes) (variant : RecoveryVariant) (proof : List Bytes) :
    Except String Bytes :=
  match merkleProofOffset variant with
  | .error message => .error message
  | .ok proofOffset =>
      if proof.length ≠ variant.proofSize then
        .error s!"invalid proof length {proof.length}, expected {variant.proofSize}"
      else if payload.length < proofOffset + proof.length * merkleProofEntrySize then
        .error "invalid proof write range"
      else .ok (overwrite payload proofOffset proof.flatten)

structure ObservedCodingMeta where
  numDataShreds : Nat
  numCodingShreds : Nat
  firstCodingIndex : Nat
  deriving DecidableEq

structure FecSet where
  dataShreds : HashMap Nat Shred
  codingShreds : HashMap Nat Shred
  codingMeta : Option ObservedCodingMeta

namespace FecSet

def new : FecSet := ⟨HashMap.empty, HashMap.empty, none⟩

def addShred (set : FecSet) (shred : Shred) : FecSet :=
  if shred.isData then { set with dataShreds := set.dataShreds.insert shred.index shred }
  else { set with codingShreds := set.codingShreds.insert shred.index shred }

def allShreds (set : FecSet) : List Shred :=
  HashMap.values set.dataShreds ++ HashMap.values set.codingShreds

def observeCodingMeta (set : FecSet) (index : Nat) (observedMeta : CodingMeta) :
    FecSet × Except ObservedCodingMeta Unit :=
  match observedMeta.firstCodingIndex index with
  | none =>
      (set, .error ⟨observedMeta.numDataShreds, observedMeta.numCodingShreds, 0⟩)
  | some first =>
      let observed : ObservedCodingMeta :=
        ⟨observedMeta.numDataShreds, observedMeta.numCodingShreds, first⟩
      match set.codingMeta with
      | none => ({ set with codingMeta := some observed }, .ok ())
      | some current => if current = observed then (set, .ok ()) else (set, .error observed)

def canAttemptRecovery (set : FecSet) : Bool :=
  match set.codingMeta with
  | none => false
  | some codingMeta =>
      let data := set.dataShreds.entries.length
      let coding := set.codingShreds.entries.length
      decide (coding ≠ 0 ∧ data < codingMeta.numDataShreds ∧
        codingMeta.numDataShreds ≤ data + coding)

def recoveryVariant (set : FecSet) : Option RecoveryVariant :=
  set.allShreds.findSome? (fun shred => RecoveryVariant.fromPayload shred.payload)

/-- The shards and payloads held, each at its place in the erasure batch. -/
structure Placed where
  presentPayloads : List (Option Bytes)
  shards : List (Option Bytes)

def placeShred (slot fecSetIndex totalShards : Nat) (placed : Placed) (shred : Shred) :
    Except String Placed :=
  match erasureShardIndex shred.payload with
  | none => .error s!"invalid erasure index for slot={slot} fec={fecSetIndex}"
  | some index =>
      if totalShards ≤ index then
        .error (s!"erasure index out of range slot={slot} fec={fecSetIndex} " ++
          s!"index={index} total={totalShards}")
      else
        (erasureShardBytes shred.payload).map (fun bytes =>
          { presentPayloads := placed.presentPayloads.set index (some shred.payload)
            shards := placed.shards.set index (some bytes) })

/-- What every rebuilt payload takes from the set as a whole. -/
structure RecoveryHeader where
  variant : RecoveryVariant
  codingMeta : ObservedCodingMeta
  signature : Bytes
  slot : Nat
  version : Nat
  fecSetIndex : Nat
  chainedMerkleRoot : Option Bytes

def recoveryHeader (set : FecSet) : Except String RecoveryHeader := do
  let variant ← orError "missing merkle variant" set.recoveryVariant
  let codingMeta ← orError "missing coding meta for merkle recovery" set.codingMeta
  let firstCode ← orError "missing coding shred for merkle recovery"
    (HashMap.values set.codingShreds).head?
  let signature ← orError "missing signature" (slice firstCode.payload 0 signatureSize)
  let slot ← parseU64 firstCode.payload slotOffset
  let version ← parseU16 firstCode.payload versionOffset
  let fecSetIndex ← parseU32 firstCode.payload fecSetIndexOffset
  let chainedMerkleRoot := (extractChainedMerkleRoot firstCode.payload variant).orElse (fun _ =>
    (HashMap.values set.dataShreds).findSome? (fun shred =>
      extractChainedMerkleRoot shred.payload variant))
  return { variant, codingMeta, signature, slot, version, fecSetIndex, chainedMerkleRoot }

def rebuildPayload (header : RecoveryHeader) (presentPayloads shards : List (Option Bytes))
    (index : Nat) : Except String Bytes :=
  match presentPayloads.getD index none with
  | some payload => .ok payload
  | none =>
      let numData := header.codingMeta.numDataShreds
      if index < numData then do
        let shard ← orError "missing reconstructed data shard" (shards.getD index none)
        buildRecoveredMerkleDataPayload header.signature shard header.variant
          header.chainedMerkleRoot
      else do
        let shard ← orError "missing reconstructed coding shard" (shards.getD index none)
        buildRecoveredMerkleCodePayload header.signature
          { slot := header.slot
            index := header.codingMeta.firstCodingIndex + (index - numData)
            version := header.version, fecSetIndex := header.fecSetIndex
            numDataShreds := numData, numCodingShreds := header.codingMeta.numCodingShreds
            position := index - numData }
          shard header.variant header.chainedMerkleRoot

/-- The missing data shred at an index, its proof written in. -/
def finishShred (variant : RecoveryVariant) (totalShards : Nat) (tree : List Hash)
    (index : Nat) (payload : Bytes) : Except String Shred := do
  let proof ← orError "failed to build merkle proof" (makeMerkleProof index totalShards tree)
  let payload ← setMerkleProof payload variant proof
  match ledger.newFromSerializedShred payload with
  | .ok shred => return shred
  | .error err =>
      throw s!"failed to deserialize recovered merkle data shred: {err}"

/-- All payloads of the erasure batch, the missing ones rebuilt, and their leaves. -/
structure RebuiltBatch where
  header : RecoveryHeader
  presentPayloads : List (Option Bytes)
  fullPayloads : List Bytes
  nodes : List Hash

def rebuildBatch (set : FecSet) : Except String RebuiltBatch := do
  let header ← set.recoveryHeader
  let numData := header.codingMeta.numDataShreds
  let numCoding := header.codingMeta.numCodingShreds
  let totalShards := numData + numCoding
  let placed ← set.allShreds.foldlM
    (placeShred header.slot header.fecSetIndex totalShards)
    ⟨List.replicate totalShards none, List.replicate totalShards none⟩
  match ledger.newReedSolomon numData numCoding with
  | .error err => throw s!"reed-solomon init failed: {err}"
  | .ok () =>
      match ledger.reconstruct numData numCoding placed.shards with
      | .error err => throw s!"merkle reconstruct failed: {err}"
      | .ok shards =>
          let rebuilt ← (List.range totalShards).mapM (fun index => do
            let payload ← rebuildPayload header placed.presentPayloads shards index
            let node ← merkleNode ledger payload header.variant
            return (payload, node))
          return { header, presentPayloads := placed.presentPayloads
                   fullPayloads := rebuilt.map Prod.fst, nodes := rebuilt.map Prod.snd }

def maybeRecoverMerkle (set : FecSet) : Except String (List Shred) := do
  let batch ← set.rebuildBatch ledger
  let numData := batch.header.codingMeta.numDataShreds
  let totalShards := numData + batch.header.codingMeta.numCodingShreds
  let tree := makeMerkleTree ledger batch.nodes
  let missing := (List.range numData).filter
    (fun index => (batch.presentPayloads.getD index none).isNone)
  missing.mapM (fun index =>
    finishShred ledger batch.header.variant totalShards tree index
      (batch.fullPayloads.getD index []))

/-- The recovery a set's variant calls for. -/
def recoverShreds (set : FecSet) : Except String (List Shred) :=
  match set.recoveryVariant with
  | some variant =>
      if variant.isMerkle then
        (set.maybeRecoverMerkle ledger).mapError (fun _ => "InvalidRecoveredShred")
      else ledger.tryRecovery set.allShreds
  | none => ledger.tryRecovery set.allShreds

/-- Keep a recovered data shred the set does not have. -/
def addRecovered (held : FecSet × List Shred) (shred : Shred) : FecSet × List Shred :=
  if shred.isData && !HashMap.containsKey held.1.dataShreds shred.index then
    ({ held.1 with dataShreds := held.1.dataShreds.insert shred.index shred }, held.2 ++ [shred])
  else held

def maybeRecover (recover : FecSet → Except String (List Shred)) (set : FecSet) :
    FecSet × Except String (List Shred) :=
  if set.codingShreds.entries.length = 0 then (set, .ok [])
  else
    match recover set with
    | .error err => (set, .error err)
    | .ok recovered =>
        let held := recovered.foldl addRecovered (set, [])
        (held.1, .ok held.2)

end FecSet

end

end Helios
