import Helios.DataBlocks
import Helios.Runs

/-! How often a block is handed on. -/

namespace Helios

namespace SlotBuffer

/-- The shred closes a block. -/
def closesBlock (shred : Shred) : Bool := shred.dataComplete || shred.lastInSlot

theorem shredAt_insertDataShred (buffer : SlotBuffer) (shred : Shred) (index : Nat) :
    (buffer.insertDataShred shred).shredAt index =
      if index = shred.index ∧ buffer.shredAt index = none then some shred
      else buffer.shredAt index := by
  have contains : HashMap.containsKey buffer.dataShreds shred.index =
      (buffer.shredAt shred.index).isSome := rfl
  unfold insertDataShred
  by_cases same : index = shred.index
  · subst same
    cases found : buffer.shredAt shred.index with
    | none =>
        rw [found] at contains
        simp only [contains, shredAt]
        simp
    | some held =>
        rw [found] at contains
        simp only [contains, shredAt]
        simpa [shredAt] using found
  · have elsewhere : ¬ (index = shred.index ∧ buffer.shredAt index = none) :=
      fun both => same both.1
    rw [if_neg elsewhere]
    simp only [shredAt]
    split
    · rfl
    · exact HashMap.get_insert_ne _ _ _ _ same

theorem holds_insertDataShred (buffer : SlotBuffer) (shred : Shred) (index : Nat) :
    (buffer.insertDataShred shred).Holds index ↔ buffer.Holds index ∨ shred.index = index := by
  rw [Holds, Holds, shredAt_insertDataShred]
  by_cases same : index = shred.index
  · cases found : buffer.shredAt index with
    | none => simp [same]
    | some held => simp
  · simp [same, Ne.symm same]

theorem ends_insertDataShred (buffer : SlotBuffer) (shred : Shred) (index : Nat) :
    (buffer.insertDataShred shred).Ends index ↔
      buffer.Ends index ∨ (shred.index = index ∧ closesBlock shred = true) := by
  unfold Ends insertDataShred
  by_cases closes : closesBlock shred = true
  · have flags : (shred.dataComplete || shred.lastInSlot) = true := closes
    simp only [flags, if_true, Finset.mem_insert, closes, and_true]
    tauto
  · have flags : ¬ (shred.dataComplete || shred.lastInSlot) = true := closes
    simp [flags, closes]

/-- The buffer once the shreds of a call are in it. -/
def fill (buffer : SlotBuffer) (shreds : List Shred) : SlotBuffer :=
  shreds.foldl insertDataShred buffer

theorem holds_fill (buffer : SlotBuffer) (shreds : List Shred) (index : Nat) :
    (buffer.fill shreds).Holds index ↔
      buffer.Holds index ∨ ∃ shred ∈ shreds, shred.index = index := by
  induction shreds generalizing buffer with
  | nil => simp [fill]
  | cons shred rest ih =>
      rw [fill, List.foldl_cons]
      have filled := ih (buffer.insertDataShred shred)
      rw [fill] at filled
      rw [filled, holds_insertDataShred, List.exists_mem_cons_iff, or_assoc]

theorem ends_fill (buffer : SlotBuffer) (shreds : List Shred) (index : Nat) :
    (buffer.fill shreds).Ends index ↔
      buffer.Ends index ∨ ∃ shred ∈ shreds, shred.index = index ∧ closesBlock shred = true := by
  induction shreds generalizing buffer with
  | nil => simp [fill]
  | cons shred rest ih =>
      rw [fill, List.foldl_cons]
      have filled := ih (buffer.insertDataShred shred)
      rw [fill] at filled
      rw [filled, ends_insertDataShred, List.exists_mem_cons_iff, or_assoc]

theorem inSlot_fill (buffer : SlotBuffer) (shreds : List Shred) (inSlot : buffer.InSlot) :
    (buffer.fill shreds).InSlot := by
  constructor
  · intro index held
    rcases (holds_fill buffer shreds index).mp held with before | ⟨shred, -, rfl⟩
    · exact inSlot.1 index before
    · exact shred.indexInSlot
  · intro index ended
    rcases (ends_fill buffer shreds index).mp ended with before | ⟨shred, -, rfl, -⟩
    · exact inSlot.2 index before
    · exact shred.indexInSlot

theorem inSlot_empty : SlotBuffer.empty.InSlot := by
  constructor
  · intro index held
    simp [Holds, shredAt, SlotBuffer.empty] at held
  · intro index ended
    simp [Ends, SlotBuffer.empty] at ended

theorem inSlot_drained (deshred : List Shred → Except String Bytes) (buffer : SlotBuffer)
    (result : SlotBuffer × List (Nat × Bytes)) (inSlot : buffer.InSlot)
    (drained : Drained deshred buffer result) : result.1.InSlot := by
  constructor
  · intro index held
    by_cases covered : ∃ start finish, buffer.Ready start finish ∧ start ≤ index ∧ index ≤ finish
    · obtain ⟨start, finish, ready, above, below⟩ := covered
      rw [Holds, drained.taken start finish index ready above below] at held
      cases held
    · apply inSlot.1
      rw [Holds, ← drained.kept]
      · exact held
      · intro start finish ready inside
        exact covered ⟨start, finish, ready, inside⟩
  · intro index ended
    rw [Ends, drained.ends] at ended
    exact inSlot.2 index ended

end SlotBuffer

namespace FecAssembler

open Runs SlotBuffer

variable (recover : FecSet → Except String (List Shred))
  (deshred : List Shred → Except String Bytes)

/-- The slot buffer a call of `ingest` scans. -/
def filledBuffer (assembler : FecAssembler) (parsed : ParsedShred) : SlotBuffer :=
  (assembler.slotBuffer parsed.shred.slot).fill (assembler.arrivals recover parsed)

theorem slotBuffer_insert (assembler : FecAssembler) (slot other : Nat) (buffer : SlotBuffer)
    (sets : HashMap FecKey FecSet) (complete : List (Nat × Nat × List Bytes)) :
    (FecAssembler.mk sets (assembler.slots.insert slot buffer) complete).slotBuffer other =
      if other = slot then buffer else assembler.slotBuffer other := by
  by_cases same : other = slot
  · subst same
    simp [slotBuffer]
  · rw [if_neg same, slotBuffer, slotBuffer, HashMap.get_insert_ne _ _ _ _ same]

/-- Whether or not a call touches the slot, its buffer is filled and drained. -/
theorem ingest_spec (assembler : FecAssembler) (parsed : ParsedShred) :
    (assembler.ingest recover deshred parsed).1.complete = assembler.complete ++
        ((assembler.filledBuffer recover parsed).emitReadyBlocks deshred).2.map
          (fun block => (parsed.shred.slot, block.1, [block.2])) ∧
      ∀ slot, (assembler.ingest recover deshred parsed).1.slotBuffer slot =
        if slot = parsed.shred.slot then
          ((assembler.filledBuffer recover parsed).emitReadyBlocks deshred).1
        else assembler.slotBuffer slot := by
  rw [ingest]
  dsimp only
  by_cases untouched : ((assembler.arrivals recover parsed).isEmpty &&
      !HashMap.containsKey assembler.slots parsed.shred.slot) = true
  · rw [if_pos untouched]
    rw [Bool.and_eq_true, List.isEmpty_iff, Bool.not_eq_true'] at untouched
    have absent : HashMap.get assembler.slots parsed.shred.slot = none := by
      have missing := untouched.2
      rw [HashMap.containsKey, Option.isSome_eq_false_iff, Option.isNone_iff_eq_none] at missing
      exact missing
    have nothing : assembler.filledBuffer recover parsed = SlotBuffer.empty := by
      rw [filledBuffer, untouched.1, slotBuffer, absent]
      rfl
    rw [nothing]
    refine ⟨(List.append_nil _).symm, ?_⟩
    intro slot
    by_cases same : slot = parsed.shred.slot
    · subst same
      rw [if_pos rfl, slotBuffer, absent]
      rfl
    · rw [if_neg same]
      rfl
  · rw [if_neg untouched]
    refine ⟨rfl, ?_⟩
    intro slot
    exact slotBuffer_insert assembler _ slot _ _ _

/-- All slot buffers hold indices of one slot. -/
def InSlots (assembler : FecAssembler) : Prop := ∀ slot, (assembler.slotBuffer slot).InSlot

theorem filledBuffer_inSlot (assembler : FecAssembler) (parsed : ParsedShred)
    (inSlots : assembler.InSlots) : (assembler.filledBuffer recover parsed).InSlot :=
  inSlot_fill _ _ (inSlots parsed.shred.slot)

theorem filledBuffer_drained (assembler : FecAssembler) (parsed : ParsedShred)
    (inSlots : assembler.InSlots) :
    Drained deshred (assembler.filledBuffer recover parsed)
      ((assembler.filledBuffer recover parsed).emitReadyBlocks deshred) :=
  emitReadyBlocks_drained deshred _ (filledBuffer_inSlot recover assembler parsed inSlots)

theorem inSlots_new : FecAssembler.new.InSlots := by
  intro slot
  have blank : FecAssembler.new.slotBuffer slot = SlotBuffer.empty := by
    simp [slotBuffer, FecAssembler.new]
  rw [blank]
  exact inSlot_empty

theorem inSlots_ingest (assembler : FecAssembler) (parsed : ParsedShred)
    (inSlots : assembler.InSlots) : (assembler.ingest recover deshred parsed).1.InSlots := by
  intro slot
  rw [(ingest_spec recover deshred assembler parsed).2]
  split
  · exact inSlot_drained deshred _ _ (filledBuffer_inSlot recover assembler parsed inSlots)
      (filledBuffer_drained recover deshred assembler parsed inSlots)
  · exact inSlots slot

def step (assembler : FecAssembler) (parsed : ParsedShred) : FecAssembler :=
  (assembler.ingest recover deshred parsed).1

/-- The blocks handed on so far, each as its slot and start index. -/
def emittedBlocks (assembler : FecAssembler) : List (Nat × Nat) :=
  assembler.complete.map (fun block => (block.1, block.2.1))

/-- An index of the slot is buffered, or the call brings its shred in. -/
def AtHand (assembler : FecAssembler) (parsed : ParsedShred) (index : Nat) : Prop :=
  (assembler.slotBuffer parsed.shred.slot).Holds index ∨
    ∃ shred ∈ assembler.arrivals recover parsed, shred.index = index

/-- An index of the slot is a known boundary, or the call brings it in as one. -/
def BoundaryAtHand (assembler : FecAssembler) (parsed : ParsedShred) (index : Nat) : Prop :=
  (assembler.slotBuffer parsed.shred.slot).Ends index ∨
    ∃ shred ∈ assembler.arrivals recover parsed, shred.index = index ∧ closesBlock shred = true

/-- No block already handed on has all its shreds at hand once more. -/
def NoneRefilled (assembler : FecAssembler) (parsed : ParsedShred) : Prop :=
  ∀ start, (parsed.shred.slot, start) ∈ assembler.emittedBlocks → ∀ finish,
    ¬ IsBlock (assembler.AtHand recover parsed) (assembler.BoundaryAtHand recover parsed)
      start finish

theorem ready_filledBuffer (assembler : FecAssembler) (parsed : ParsedShred)
    (start finish : Nat) :
    (assembler.filledBuffer recover parsed).Ready start finish ↔
      IsBlock (assembler.AtHand recover parsed) (assembler.BoundaryAtHand recover parsed)
        start finish := by
  have held : (assembler.filledBuffer recover parsed).Holds = assembler.AtHand recover parsed := by
    funext index
    exact propext (holds_fill _ _ index)
  have ends : (assembler.filledBuffer recover parsed).Ends =
      assembler.BoundaryAtHand recover parsed := by
    funext index
    exact propext (ends_fill _ _ index)
  rw [Ready, held, ends]

theorem emittedBlocks_step (assembler : FecAssembler) (parsed : ParsedShred) :
    (step recover deshred assembler parsed).emittedBlocks = assembler.emittedBlocks ++
      (((assembler.filledBuffer recover parsed).emitReadyBlocks deshred).2.map Prod.fst).map
        (fun start => (parsed.shred.slot, start)) := by
  rw [step, emittedBlocks, (ingest_spec recover deshred assembler parsed).1, List.map_append,
    List.map_map, List.map_map]
  rfl

/-- A block that is at hand is handed on, if its shreds deshred. -/
theorem mem_emittedBlocks_step (assembler : FecAssembler) (parsed : ParsedShred)
    (inSlots : assembler.InSlots) (start finish : Nat)
    (block : IsBlock (assembler.AtHand recover parsed) (assembler.BoundaryAtHand recover parsed)
      start finish)
    (deshreds : ∀ shreds, ∃ payload, deshred shreds = .ok payload) :
    start ∈ ((assembler.filledBuffer recover parsed).emitReadyBlocks deshred).2.map Prod.fst := by
  have drained := filledBuffer_drained recover deshred assembler parsed inSlots
  obtain ⟨payload, accepted⟩ := deshreds
    (shredsBetween (assembler.filledBuffer recover parsed).shredAt start finish)
  apply List.mem_map.mpr
  refine ⟨(start, payload), ?_, rfl⟩
  exact (drained.pushed start payload).mpr
    ⟨finish, (ready_filledBuffer recover assembler parsed start finish).mpr block, accepted⟩

theorem nodup_step (assembler : FecAssembler) (parsed : ParsedShred)
    (inSlots : assembler.InSlots) (nodup : assembler.emittedBlocks.Nodup)
    (noneRefilled : assembler.NoneRefilled recover parsed) :
    (step recover deshred assembler parsed).emittedBlocks.Nodup := by
  have drained := filledBuffer_drained recover deshred assembler parsed inSlots
  rw [emittedBlocks_step]
  apply List.Nodup.append nodup
  · exact drained.distinct.map (fun first second same => (Prod.mk.inj same).2)
  · intro block old new
    obtain ⟨start, member, rfl⟩ := List.mem_map.mp new
    obtain ⟨⟨pushedStart, payload⟩, pushed, rfl⟩ := List.mem_map.mp member
    obtain ⟨finish, ready, -⟩ := (drained.pushed _ _).mp pushed
    exact noneRefilled _ old finish
      ((ready_filledBuffer recover assembler parsed _ finish).mp ready)

theorem noneRefilled_of_nodup (assembler : FecAssembler) (parsed : ParsedShred)
    (inSlots : assembler.InSlots) (deshreds : ∀ shreds, ∃ payload, deshred shreds = .ok payload)
    (nodup : (step recover deshred assembler parsed).emittedBlocks.Nodup) :
    assembler.NoneRefilled recover parsed := by
  intro start old finish block
  rw [emittedBlocks_step] at nodup
  have new := mem_emittedBlocks_step recover deshred assembler parsed inSlots start finish block
    deshreds
  exact (List.nodup_append.mp nodup).2.2 _ old _ (List.mem_map.mpr ⟨start, new, rfl⟩) rfl

theorem emittedBlocks_isPrefix (assembler : FecAssembler) (inputs : List ParsedShred) :
    assembler.emittedBlocks <+: (run (step recover deshred) assembler inputs).emittedBlocks := by
  induction inputs generalizing assembler with
  | nil => exact List.prefix_rfl
  | cons parsed rest ih =>
      rw [run_cons]
      apply List.IsPrefix.trans _ (ih (step recover deshred assembler parsed))
      rw [emittedBlocks_step]
      exact List.prefix_append _ _

theorem nodup_run (assembler : FecAssembler) (inputs : List ParsedShred)
    (inSlots : assembler.InSlots) (nodup : assembler.emittedBlocks.Nodup)
    (noneRefilled : ∀ pair ∈ trace (step recover deshred) assembler inputs,
      pair.1.NoneRefilled recover pair.2) :
    (run (step recover deshred) assembler inputs).emittedBlocks.Nodup := by
  have both := run_invariant (step recover deshred)
    (fun reached => reached.InSlots ∧ reached.emittedBlocks.Nodup) assembler inputs
    ⟨inSlots, nodup⟩ (by
      intro pair member reached
      exact ⟨inSlots_ingest recover deshred pair.1 pair.2 reached.1,
        nodup_step recover deshred pair.1 pair.2 reached.1 reached.2 (noneRefilled pair member)⟩)
  exact both.2

theorem noneRefilled_run (assembler : FecAssembler) (inputs : List ParsedShred)
    (inSlots : assembler.InSlots) (deshreds : ∀ shreds, ∃ payload, deshred shreds = .ok payload)
    (nodup : (run (step recover deshred) assembler inputs).emittedBlocks.Nodup) :
    ∀ pair ∈ trace (step recover deshred) assembler inputs,
      pair.1.NoneRefilled recover pair.2 := by
  induction inputs generalizing assembler with
  | nil => intro pair member; cases member
  | cons parsed rest ih =>
      rw [run_cons] at nodup
      intro pair member
      rcases List.mem_cons.mp member with rfl | later
      · apply noneRefilled_of_nodup recover deshred assembler parsed inSlots deshreds
        exact (emittedBlocks_isPrefix recover deshred _ rest).sublist.nodup nodup
      · exact ih _ (inSlots_ingest recover deshred assembler parsed inSlots) nodup pair later

/-- A run hands no block on twice if no call brings a block it has handed on
back to hand in full. Where deshredding cannot fail the converse holds. -/
theorem blocks_emitted_once (inputs : List ParsedShred) :
    ((∀ pair ∈ trace (step recover deshred) FecAssembler.new inputs,
        pair.1.NoneRefilled recover pair.2) →
      (run (step recover deshred) FecAssembler.new inputs).emittedBlocks.Nodup) ∧
    ((∀ shreds, ∃ payload, deshred shreds = .ok payload) →
      (run (step recover deshred) FecAssembler.new inputs).emittedBlocks.Nodup →
      ∀ pair ∈ trace (step recover deshred) FecAssembler.new inputs,
        pair.1.NoneRefilled recover pair.2) :=
  ⟨nodup_run recover deshred _ inputs inSlots_new List.nodup_nil,
    fun deshreds nodup => noneRefilled_run recover deshred _ inputs inSlots_new deshreds nodup⟩

/-- The one data shred of a legacy FEC set of one data and one coding shred. -/
def loneDataPayload : Bytes :=
  List.replicate 64 0 ++ [0xa5] ++ List.replicate 20 0 ++ [0x40, 88, 0] ++ List.replicate 1140 0

/-- Its coding shred, whose shard copies the data shred's. -/
def loneCodingPayload : Bytes :=
  List.replicate 64 0 ++ [0x5a] ++ List.replicate 18 0 ++ [1, 0, 1, 0, 0, 0] ++
    loneDataPayload.take 1139

def loneDataShred : Shred :=
  { payload := loneDataPayload, slot := 0, index := 0, fecSetIndex := 0, isData := true
    dataComplete := true, lastInSlot := false
    indexInSlot := by decide
    sized := by
      intro variant read
      have legacy : RecoveryVariant.fromPayload loneDataPayload = some .legacyData := by
        decide +kernel
      rw [legacy] at read
      cases read
      decide +kernel }

def loneCodingShred : Shred :=
  { payload := loneCodingPayload, slot := 0, index := 0, fecSetIndex := 0, isData := false
    dataComplete := false, lastInSlot := false
    indexInSlot := by decide
    sized := by
      intro variant read
      have legacy : RecoveryVariant.fromPayload loneCodingPayload = some .legacyCode := by
        decide +kernel
      rw [legacy] at read
      cases read
      decide +kernel }

/-- Recovery from the coding shred gives the data shred back. -/
def copyLedger : Ledger :=
  { newFromSerializedShred := fun _ => .error "not a merkle shred"
    tryRecovery := fun _ => .ok [loneDataShred]
    deshred := fun shreds => .ok (shreds.flatMap (fun shred => (shred.payload.take
      (Machine.ofLeBytes ((shred.payload.drop 86).take 2))).drop 88))
    newReedSolomon := fun _ _ => .ok ()
    reconstruct := fun _ _ shards => .ok shards
    sha256 := fun _ => default }

def codingThenData : List ParsedShred :=
  [⟨loneCodingPayload, loneCodingShred⟩, ⟨loneDataPayload, loneDataShred⟩]

/-- The recovered shred completes the block and the raw one completes it again. -/
theorem raw_twin_emits_again :
    (codingThenData.map DedupKey.fromShred).Nodup ∧
    ¬ (run (ingestShred copyLedger) FecAssembler.new codingThenData).emittedBlocks.Nodup := by
  have twice : (run (ingestShred copyLedger) FecAssembler.new codingThenData).emittedBlocks =
      [(0, 0), (0, 0)] := by decide +kernel
  refine ⟨by decide +kernel, ?_⟩
  rw [twice]
  decide

end FecAssembler

end Helios
