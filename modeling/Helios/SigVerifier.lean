import Helios.Runs
import Helios.Shred
import Helios.Types

/-! The verifier in front of the assembler. It checks every shred against the one leader it
holds, over the whole body, whatever the shred's slot and variant. -/

namespace Helios

inductive ShredVariant where
  | legacyData
  | legacyCode
  | merkleData (proofSize : Nat)
  | merkleCode (proofSize : Nat)
  deriving DecidableEq

namespace ShredVariant

def fromByte (byte : UInt8) : ShredVariant :=
  if byte = 0x5a then .legacyCode
  else if byte = 0xa5 then .legacyData
  else if 128 ≤ byte.toNat then .merkleData (byte.toNat % 16)
  else .merkleCode (byte.toNat % 16)

def isLegacy : ShredVariant → Bool
  | .legacyData | .legacyCode => true
  | _ => false

end ShredVariant

namespace SigVerification

/-- The start of the entries in a data shred. -/
def minShredSize : Nat := 88

/-- A shred the parser has accepted. The ledger's parser takes a Merkle shred only at its
full length. -/
structure ReceivedShred where
  parsed : ParsedShred
  minimum : minShredSize ≤ parsed.raw.length
  full : (ShredVariant.fromByte (parsed.raw.getD shredVariantOffset 0)).isLegacy = false →
    merkleDataPayloadSize ≤ parsed.raw.length
  deriving DecidableEq

namespace ReceivedShred

def raw (shred : ReceivedShred) : Bytes := shred.parsed.raw

def slot (shred : ReceivedShred) : Nat := shred.parsed.shred.slot

def variant (shred : ReceivedShred) : ShredVariant :=
  ShredVariant.fromByte (shred.raw.getD shredVariantOffset 0)

def signature (shred : ReceivedShred) : Bytes := shred.raw.take signatureSize

def body (shred : ReceivedShred) : Bytes := shred.raw.drop shredVariantOffset

end ReceivedShred

/-- Ed25519, the root a Merkle shred proves its place under, and the leaders the cluster has
agreed on. -/
structure Cluster where
  verify : Bytes → Pubkey → Bytes → Bool
  merkleRoot : Shred → Option Hash
  leaderOf : Nat → Pubkey

structure LeaderScheduleCache where
  schedule : HashMap Nat Pubkey
  epoch : Nat
  fallbackLeader : Pubkey

namespace LeaderScheduleCache

def leaderForSlot (cache : LeaderScheduleCache) (slot : Nat) : Pubkey :=
  (HashMap.get cache.schedule slot).getD cache.fallbackLeader

def update (cache : LeaderScheduleCache) (epoch : Nat) (schedule : HashMap Nat Pubkey) :
    LeaderScheduleCache :=
  { cache with epoch := epoch, schedule := schedule }

end LeaderScheduleCache

structure SigVerifier where
  leaderPubkey : Pubkey
  enabled : Bool

/-- The verifier with the thread that feeds it leaders: `connected` while the consumer of the
verified shreds holds its end, `running` until a shred could not be sent. -/
structure State where
  verifier : SigVerifier
  cache : LeaderScheduleCache
  lastSlot : Nat
  connected : Bool
  running : Bool
  forwarded : List ReceivedShred

inductive Event where
  | schedule (epoch : Nat) (leaders : HashMap Nat Pubkey)
  | leaderSync (nowMs : Nat)
  | shred (shred : ReceivedShred)
  | consumerGone

def start (cache : LeaderScheduleCache) (enabled : Bool) : State where
  verifier := ⟨cache.leaderForSlot 0, enabled⟩
  cache := cache
  lastSlot := 0
  connected := true
  running := true
  forwarded := []

section

variable (cluster : Cluster)

def verifyShred (shred : ReceivedShred) (leaderPubkey : Pubkey) : Except String Unit :=
  if shred.raw.length < signatureSize + 1 then .error "shred too short to verify"
  else if cluster.verify shred.signature leaderPubkey shred.body then .ok ()
  else .error "Ed25519 signature invalid"

def SigVerifier.verify (verifier : SigVerifier) (shred : ReceivedShred) : Except String Unit :=
  if !verifier.enabled then .ok () else verifyShred cluster shred verifier.leaderPubkey

def SigVerifier.updateLeader (verifier : SigVerifier) (newLeader : Pubkey) : SigVerifier :=
  { verifier with leaderPubkey := newLeader }

/-- A round of the batch verifier. -/
def runBatch (state : State) (shred : ReceivedShred) : State :=
  if state.running then
    match state.verifier.verify cluster shred with
    | .error _ => state
    | .ok () =>
        if state.connected then { state with forwarded := state.forwarded ++ [shred] }
        else { state with running := false }
  else state

/-- A round of the leader-sync thread. -/
def leaderSync (state : State) (nowMs : Nat) : State :=
  let approxSlot := nowMs / 400
  if approxSlot ≠ state.lastSlot then
    { state with
      verifier := state.verifier.updateLeader (state.cache.leaderForSlot approxSlot)
      lastSlot := approxSlot }
  else state

def step (state : State) : Event → State
  | .schedule epoch leaders => { state with cache := state.cache.update epoch leaders }
  | .leaderSync nowMs => leaderSync state nowMs
  | .shred shred => runBatch cluster state shred
  | .consumerGone => { state with connected := false }

/-- What a leader signs: the body of a legacy shred, the root of a Merkle shred. -/
def signedBytes (shred : ReceivedShred) : Option Bytes :=
  if shred.variant.isLegacy then some shred.body
  else (cluster.merkleRoot shred.parsed.shred).map Subtype.val

/-- Signed by the leader of its slot. -/
def Genuine (shred : ReceivedShred) : Prop :=
  ∃ message, signedBytes cluster shred = some message ∧
    cluster.verify shred.signature (cluster.leaderOf shred.slot) message = true

def Forwards (state : State) (shred : ReceivedShred) : Prop :=
  (step cluster state (.shred shred)).forwarded = state.forwarded ++ [shred]

/-- Every shred of the run is forwarded exactly if it is genuine. -/
def Authenticates (begin : State) (events : List Event) : Prop :=
  ∀ pair ∈ Runs.trace (step cluster) begin events, ∀ shred, pair.2 = .shred shred →
    (Forwards cluster pair.1 shred ↔ Genuine cluster shred)

/-- One key signed one message with it. -/
def SignsOnce (signature : Bytes) : Prop :=
  ∀ key message key' message', cluster.verify signature key message = true →
    cluster.verify signature key' message' = true → key = key' ∧ message = message'

/-- The batch verifier has not ended and sends to someone. -/
def Open (state : State) : Prop := state.running = true ∧ state.connected = true

/-- A legacy shred of a slot whose leader is the one held. -/
def Covered (state : State) (shred : ReceivedShred) : Prop :=
  shred.variant.isLegacy = true ∧ state.verifier.leaderPubkey = cluster.leaderOf shred.slot

theorem forwards_iff (state : State) (shred : ReceivedShred)
    (enabled : state.verifier.enabled = true) :
    Forwards cluster state shred ↔ Open state ∧
      cluster.verify shred.signature state.verifier.leaderPubkey shred.body = true := by
  have long : ¬ shred.raw.length < signatureSize + 1 := by
    have minimum := shred.minimum
    have least : signatureSize + 1 ≤ minShredSize := by decide
    rw [ReceivedShred.raw]
    omega
  have kept : state.forwarded ≠ state.forwarded ++ [shred] := by simp
  rw [Forwards, step, runBatch, SigVerifier.verify, enabled, verifyShred, if_neg long, Open]
  cases running : state.running with
  | false => simp [kept]
  | true =>
      cases signed : cluster.verify shred.signature state.verifier.leaderPubkey shred.body with
      | false => simp [kept]
      | true =>
          cases connected : state.connected with
          | false => simp [kept]
          | true => simp

/-- The body is longer than any root, so that no Merkle shred signs it. -/
theorem legacy_of_signs_body (shred : ReceivedShred)
    (signs : signedBytes cluster shred = some shred.body) : shred.variant.isLegacy = true := by
  cases kind : shred.variant.isLegacy with
  | true => rfl
  | false =>
      rw [signedBytes, kind, if_neg Bool.false_ne_true] at signs
      rcases Option.map_eq_some_iff.mp signs with ⟨root, -, same⟩
      have short : shred.body.length = 32 := by rw [← same, root.property]
      have full := shred.full kind
      have size : shred.body.length = shred.parsed.raw.length - 64 := List.length_drop
      have large : merkleDataPayloadSize = 1203 := rfl
      omega

theorem genuine_covered_iff (state : State) (shred : ReceivedShred)
    (covered : Covered cluster state shred) :
    Genuine cluster shred ↔
      cluster.verify shred.signature state.verifier.leaderPubkey shred.body = true := by
  rw [Genuine, signedBytes, if_pos covered.1, covered.2]
  simp

theorem covered_of_both (state : State) (shred : ReceivedShred)
    (signsOnce : SignsOnce cluster shred.signature) (genuine : Genuine cluster shred)
    (passes : cluster.verify shred.signature state.verifier.leaderPubkey shred.body = true) :
    Covered cluster state shred := by
  rcases genuine with ⟨message, signs, verified⟩
  rcases signsOnce _ _ _ _ passes verified with ⟨sameKey, sameMessage⟩
  rw [← sameMessage] at signs
  exact ⟨legacy_of_signs_body cluster shred signs, sameKey⟩

/-- A genuine shred finds the verifier open and is covered, and what the held leader's key
would let through is covered too. -/
structure Matched (state : State) (shred : ReceivedShred) : Prop where
  genuine : Genuine cluster shred → Open state ∧ Covered cluster state shred
  passed : Open state →
    cluster.verify shred.signature state.verifier.leaderPubkey shred.body = true →
      Covered cluster state shred

theorem forwards_iff_genuine_iff (state : State) (shred : ReceivedShred)
    (enabled : state.verifier.enabled = true) (signsOnce : SignsOnce cluster shred.signature) :
    (Forwards cluster state shred ↔ Genuine cluster shred) ↔ Matched cluster state shred := by
  rw [forwards_iff cluster state shred enabled]
  constructor
  · intro same
    constructor
    · intro genuine
      rcases same.mpr genuine with ⟨opened, passes⟩
      exact ⟨opened, covered_of_both cluster state shred signsOnce genuine passes⟩
    · intro opened passes
      exact covered_of_both cluster state shred signsOnce (same.mp ⟨opened, passes⟩) passes
  · intro matched
    constructor
    · intro ⟨opened, passes⟩
      have covered := matched.passed opened passes
      exact (genuine_covered_iff cluster state shred covered).mpr passes
    · intro genuine
      rcases matched.genuine genuine with ⟨opened, covered⟩
      exact ⟨opened, (genuine_covered_iff cluster state shred covered).mp genuine⟩

theorem enabled_step (state : State) (event : Event) :
    (step cluster state event).verifier.enabled = state.verifier.enabled := by
  cases event with
  | schedule epoch leaders => rfl
  | leaderSync nowMs =>
      rw [step, leaderSync]
      split
      · rfl
      · rfl
  | shred shred =>
      rw [step, runBatch]
      split
      · split
        · rfl
        · split
          · rfl
          · rfl
      · rfl
  | consumerGone => rfl

theorem leader_step (state : State) (event : Event) :
    (step cluster state event).verifier.leaderPubkey =
        state.cache.leaderForSlot (step cluster state event).lastSlot ∨
      (step cluster state event).verifier.leaderPubkey = state.verifier.leaderPubkey ∧
        (step cluster state event).lastSlot = state.lastSlot := by
  cases event with
  | schedule epoch leaders => exact Or.inr ⟨rfl, rfl⟩
  | leaderSync nowMs =>
      rw [step, leaderSync]
      split
      · exact Or.inl rfl
      · exact Or.inr ⟨rfl, rfl⟩
  | shred shred =>
      right
      rw [step, runBatch]
      split
      · split
        · exact ⟨rfl, rfl⟩
        · split
          · exact ⟨rfl, rfl⟩
          · exact ⟨rfl, rfl⟩
      · exact ⟨rfl, rfl⟩
  | consumerGone => exact Or.inr ⟨rfl, rfl⟩

/-- The leader held never depends on a shred: a schedule the cache has had names it for the
slot last estimated from the clock. -/
theorem leader_of_estimate (cache : LeaderScheduleCache) (enabled : Bool) (events : List Event) :
    ∃ before, before <+: events ∧
      (Runs.run (step cluster) (start cache enabled) events).verifier.leaderPubkey =
        (Runs.run (step cluster) (start cache enabled) before).cache.leaderForSlot
          (Runs.run (step cluster) (start cache enabled) events).lastSlot := by
  induction events using List.reverseRecOn with
  | nil => exact ⟨[], List.prefix_rfl, rfl⟩
  | append_singleton earlier event ih =>
      rw [Runs.run_append, Runs.run_cons, Runs.run_nil]
      rcases leader_step cluster (Runs.run (step cluster) (start cache enabled) earlier) event with
        updated | ⟨held, sameSlot⟩
      · exact ⟨earlier, List.prefix_append earlier [event], updated⟩
      · rcases ih with ⟨before, inside, named⟩
        refine ⟨before, inside.trans (List.prefix_append earlier [event]), ?_⟩
        rw [held, sameSlot]
        exact named

/-- Shreds are authenticated along a run exactly if each one meets a verifier that matches
it. -/
theorem authenticates_iff (cache : LeaderScheduleCache) (events : List Event)
    (signsOnce : ∀ shred, .shred shred ∈ events → SignsOnce cluster shred.signature) :
    Authenticates cluster (start cache true) events ↔
      ∀ pair ∈ Runs.trace (step cluster) (start cache true) events, ∀ shred,
        pair.2 = .shred shred → Matched cluster pair.1 shred := by
  have enabled := Runs.trace_invariant (step cluster)
    (fun state => state.verifier.enabled = true) (start cache true) events rfl
    (fun pair _ on => (enabled_step cluster pair.1 pair.2).trans on)
  have arrived := Runs.trace_input (step cluster) (start cache true) events
  constructor
  · intro authenticates pair member shred arrives
    have once := signsOnce shred (arrives ▸ arrived pair member)
    exact (forwards_iff_genuine_iff cluster pair.1 shred (enabled pair member) once).mp
      (authenticates pair member shred arrives)
  · intro matched pair member shred arrives
    have once := signsOnce shred (arrives ▸ arrived pair member)
    exact (forwards_iff_genuine_iff cluster pair.1 shred (enabled pair member) once).mpr
      (matched pair member shred arrives)

end

/-- A packet of zeros but for the variant byte. -/
def packet (variant : UInt8) (size : Nat) : Bytes :=
  List.replicate 64 0 ++ variant :: List.replicate (size - 65) 0

def legacyShred : ReceivedShred where
  parsed := {
    raw := packet 0xa5 1228
    shred := ⟨packet 0xa5 1228, 0, 0, 0, true, false, false, maxDataShredsPerSlot_pos, by
      intro variant found
      have kind : RecoveryVariant.fromPayload (packet 0xa5 1228) = some .legacyData := by
        decide +kernel
      rw [kind] at found
      cases found
      decide +kernel⟩ }
  minimum := by decide +kernel
  full := by
    intro merkle
    exact absurd merkle (by decide +kernel)

def merkleShred : ReceivedShred where
  parsed := {
    raw := packet 0x80 1203
    shred := ⟨packet 0x80 1203, 0, 0, 0, true, false, false, maxDataShredsPerSlot_pos, by
      intro variant found
      have kind : RecoveryVariant.fromPayload (packet 0x80 1203) =
          some (.merkleData 0 false false) := by
        decide +kernel
      rw [kind] at found
      cases found
      decide +kernel⟩ }
  minimum := by decide +kernel
  full := fun _ => by decide +kernel

def sampleRoot : Hash := ⟨List.replicate 32 1, by simp⟩

/-- One leader, who signed the message that the signature is valid for. -/
def soleLeader (message : Bytes) : Cluster where
  verify _ key signed := decide (key = .ofNat 7 ∧ signed = message)
  merkleRoot _ := some sampleRoot
  leaderOf _ := .ofNat 7

def knownLeader : LeaderScheduleCache := ⟨HashMap.empty, 0, .ofNat 7⟩

theorem soleLeader_verify_iff (message signature signed : Bytes) (key : Pubkey) :
    (soleLeader message).verify signature key signed = true ↔
      key = .ofNat 7 ∧ signed = message :=
  decide_eq_true_iff

theorem soleLeader_signsOnce (message signature : Bytes) :
    SignsOnce (soleLeader message) signature := by
  intro key signed key' signed' first second
  have one := (soleLeader_verify_iff message signature signed key).mp first
  have other := (soleLeader_verify_iff message signature signed' key').mp second
  exact ⟨one.1.trans other.1.symm, one.2.trans other.2.symm⟩

theorem authenticates_legacy_shred :
    Authenticates (soleLeader legacyShred.body) (start knownLeader true)
      [.leaderSync 400, .shred legacyShred] := by
  have matched := authenticates_iff (soleLeader legacyShred.body) knownLeader
    [.leaderSync 400, .shred legacyShred]
    (fun shred _ => soleLeader_signsOnce legacyShred.body shred.signature)
  rw [matched]
  intro pair member shred arrives
  rw [Runs.trace, Runs.trace, Runs.trace, List.mem_cons, List.mem_singleton] at member
  rcases member with rfl | rfl
  · cases arrives
  · cases arrives
    have covered : Covered (soleLeader legacyShred.body)
        (step (soleLeader legacyShred.body) (start knownLeader true) (.leaderSync 400))
        legacyShred := ⟨by decide +kernel, rfl⟩
    exact ⟨fun _ => ⟨⟨rfl, rfl⟩, covered⟩, fun _ _ => covered⟩

/-- A Merkle shred that the leader of its slot has signed is dropped, with that very leader
held. -/
theorem genuine_merkle_shred_dropped :
    ¬ Authenticates (soleLeader sampleRoot.val) (start knownLeader true)
      [.leaderSync 400, .shred merkleShred] := by
  intro authenticates
  have same := authenticates
    (step (soleLeader sampleRoot.val) (start knownLeader true) (.leaderSync 400),
      .shred merkleShred) (List.mem_cons_of_mem _ List.mem_cons_self) merkleShred rfl
  have kind : merkleShred.variant.isLegacy = false := by decide +kernel
  have signs : signedBytes (soleLeader sampleRoot.val) merkleShred = some sampleRoot.val := by
    rw [signedBytes, kind]
    rfl
  have genuine : Genuine (soleLeader sampleRoot.val) merkleShred :=
    ⟨sampleRoot.val, signs, (soleLeader_verify_iff _ _ _ _).mpr ⟨rfl, rfl⟩⟩
  have forwarded := same.mpr genuine
  rw [forwards_iff _ _ _ (by rfl)] at forwarded
  have body := ((soleLeader_verify_iff _ _ _ _).mp forwarded.2).2
  have length := congrArg List.length body
  exact absurd length (by decide +kernel)

end SigVerification

end Helios
