import Helios.BlockEmission

/-! Data shreds of one slot give the same blocks in every order of arrival. -/

namespace Helios.ArrivalOrder

open Runs SlotBuffer FecAssembler

/-- A data shred with the index has been ingested. -/
def Ingested (shreds : List ParsedShred) (index : Nat) : Prop :=
  ∃ parsed ∈ shreds, parsed.shred.index = index

/-- The data shred ingested at the index is flagged `data_complete` or `last_in_slot`. -/
def Flagged (shreds : List ParsedShred) (index : Nat) : Prop :=
  ∃ parsed ∈ shreds, parsed.shred.index = index ∧ closesBlock parsed.shred = true

/-- The ranges that ought to be emitted. -/
def Block (shreds : List ParsedShred) (start finish : Nat) : Prop :=
  IsBlock (Ingested shreds) (Flagged shreds) start finish

def ingestedAt (shreds : List ParsedShred) (index : Nat) : Option Shred :=
  (shreds.find? (fun parsed => parsed.shred.index == index)).map ParsedShred.shred

/-- The ingested shreds from `start` to `finish`, in order. -/
def blockShreds (shreds : List ParsedShred) (start finish : Nat) : List Shred :=
  shredsBetween (ingestedAt shreds) start finish

/-- Data shreds of one slot with pairwise distinct indices. -/
structure DataOfSlot (slot : Nat) (shreds : List ParsedShred) : Prop where
  data : ∀ parsed ∈ shreds, parsed.shred.isData = true
  sameSlot : ∀ parsed ∈ shreds, parsed.shred.slot = slot
  distinct : (shreds.map (fun parsed => parsed.shred.index)).Nodup

theorem ingestedAt_of_mem (slot : Nat) (shreds : List ParsedShred)
    (dataOfSlot : DataOfSlot slot shreds) (parsed : ParsedShred) (member : parsed ∈ shreds) :
    ingestedAt shreds parsed.shred.index = some parsed.shred := by
  have found : (shreds.find? (fun other => other.shred.index == parsed.shred.index)).isSome :=
    List.find?_isSome.mpr ⟨parsed, member, by simp⟩
  obtain ⟨other, foundOther⟩ := Option.isSome_iff_exists.mp found
  have sameIndex : other.shred.index = parsed.shred.index := by
    simpa using List.find?_some foundOther
  have same : other = parsed := List.inj_on_of_nodup_map dataOfSlot.distinct
    (List.mem_of_find?_eq_some foundOther) member sameIndex
  rw [ingestedAt, foundOther, same]
  rfl

theorem ingestedAt_eq_none (shreds : List ParsedShred) (index : Nat)
    (absent : ¬ Ingested shreds index) : ingestedAt shreds index = none := by
  rw [ingestedAt, Option.map_eq_none_iff, List.find?_eq_none]
  intro parsed member same
  exact absent ⟨parsed, member, by simpa using same⟩

theorem ingestedAt_perm (slot : Nat) (shreds order : List ParsedShred)
    (dataOfSlot : DataOfSlot slot shreds) (orderOfSlot : DataOfSlot slot order)
    (perm : order.Perm shreds) : ingestedAt order = ingestedAt shreds := by
  funext index
  by_cases here : Ingested shreds index
  · obtain ⟨parsed, member, rfl⟩ := here
    rw [ingestedAt_of_mem slot shreds dataOfSlot parsed member,
      ingestedAt_of_mem slot order orderOfSlot parsed (perm.mem_iff.mpr member)]
  · have absent : ¬ Ingested order index := by
      rintro ⟨parsed, member, same⟩
      exact here ⟨parsed, perm.mem_iff.mp member, same⟩
    rw [ingestedAt_eq_none shreds index here, ingestedAt_eq_none order index absent]

theorem block_perm (shreds order : List ParsedShred) (perm : order.Perm shreds)
    (start finish : Nat) : Block order start finish ↔ Block shreds start finish := by
  have ingested : Ingested order = Ingested shreds := by
    funext index
    simp only [Ingested, perm.mem_iff]
  have flagged : Flagged order = Flagged shreds := by
    funext index
    simp only [Flagged, perm.mem_iff]
  rw [Block, Block, ingested, flagged]

theorem dataOfSlot_perm (slot : Nat) (shreds order : List ParsedShred)
    (dataOfSlot : DataOfSlot slot shreds) (perm : order.Perm shreds) : DataOfSlot slot order :=
  ⟨fun parsed member => dataOfSlot.data parsed (perm.mem_iff.mp member),
    fun parsed member => dataOfSlot.sameSlot parsed (perm.mem_iff.mp member),
    (perm.map _).nodup_iff.mpr dataOfSlot.distinct⟩

section

variable (recover : FecSet → Except String (List Shred))
  (deshred : List Shred → Except String Bytes)

/-- No coding header has been seen. -/
def NoCoding (assembler : FecAssembler) : Prop :=
  ∀ key set, HashMap.get assembler.sets key = some set → set.codingMeta = none

/-- The assembler once the data shreds `seen` of a slot are in, in any order. -/
structure Assembled (slot : Nat) (seen : List ParsedShred) (assembler : FecAssembler) : Prop where
  noCoding : NoCoding assembler
  inSlots : assembler.InSlots
  ends : ∀ index, (assembler.slotBuffer slot).Ends index ↔ Flagged seen index
  taken : ∀ start finish index, Block seen start finish → start ≤ index → index ≤ finish →
    (assembler.slotBuffer slot).shredAt index = none
  kept : ∀ index, (∀ start finish, Block seen start finish →
      ¬ (start ≤ index ∧ index ≤ finish)) →
    (assembler.slotBuffer slot).shredAt index = ingestedAt seen index
  emitted : ∀ block, block ∈ assembler.complete ↔ ∃ start finish payload,
    Block seen start finish ∧ deshred (blockShreds seen start finish) = .ok payload ∧
      block = (slot, start, [payload])
  distinct : assembler.emittedBlocks.Nodup

theorem arrivals_of_data (assembler : FecAssembler) (parsed : ParsedShred)
    (noCoding : NoCoding assembler) (data : parsed.shred.isData = true) :
    assembler.arrivals recover parsed = [parsed.shred] ∧
      (assembler.receivingSet parsed).codingMeta = none ∧
      (assembler.recoveredSet recover parsed).1 = assembler.receivingSet parsed := by
  have header : (assembler.receivingSet parsed).codingMeta = none := by
    rw [receivingSet, ParsedShred.codingMeta_of_isData parsed data, FecSet.addShred, if_pos data]
    cases found : HashMap.get assembler.sets ⟨parsed.shred.slot, parsed.shred.fecSetIndex⟩ with
    | none => rfl
    | some set => exact noCoding _ set found
  have idle : (assembler.receivingSet parsed).canAttemptRecovery = false := by
    rw [FecSet.canAttemptRecovery, header]
  have recovered : assembler.recoveredSet recover parsed = (assembler.receivingSet parsed, []) := by
    simp [recoveredSet, idle]
  refine ⟨?_, header, by rw [recovered]⟩
  rw [arrivals, recovered, if_pos data]
  rfl

theorem noCoding_ingest (assembler : FecAssembler) (parsed : ParsedShred)
    (noCoding : NoCoding assembler) (data : parsed.shred.isData = true) :
    NoCoding (step recover deshred assembler parsed) := by
  have facts := arrivals_of_data recover assembler parsed noCoding data
  have sets : (step recover deshred assembler parsed).sets = assembler.sets.insert
      ⟨parsed.shred.slot, parsed.shred.fecSetIndex⟩ (assembler.receivingSet parsed) := by
    rw [step, ingest]
    dsimp only
    rw [facts.2.2]
    split
    · rfl
    · rfl
  intro key set found
  rw [sets] at found
  by_cases same : key = ⟨parsed.shred.slot, parsed.shred.fecSetIndex⟩
  · subst same
    rw [HashMap.get_insert] at found
    rw [← Option.some.inj found]
    exact facts.2.1
  · rw [HashMap.get_insert_ne _ _ _ _ same] at found
    exact noCoding key set found

theorem ingested_cons (parsed : ParsedShred) (seen : List ParsedShred) (index : Nat) :
    Ingested (parsed :: seen) index ↔ parsed.shred.index = index ∨ Ingested seen index := by
  rw [Ingested, List.exists_mem_cons_iff]
  rfl

theorem flagged_cons (parsed : ParsedShred) (seen : List ParsedShred) (index : Nat) :
    Flagged (parsed :: seen) index ↔
      (parsed.shred.index = index ∧ closesBlock parsed.shred = true) ∨ Flagged seen index := by
  rw [Flagged, List.exists_mem_cons_iff]
  rfl

theorem ingestedAt_cons (parsed : ParsedShred) (seen : List ParsedShred) (index : Nat) :
    ingestedAt (parsed :: seen) index =
      if parsed.shred.index = index then some parsed.shred else ingestedAt seen index := by
  by_cases same : parsed.shred.index = index
  · simp [ingestedAt, same]
  · simp [ingestedAt, same]

theorem not_ingested (slot : Nat) (parsed : ParsedShred) (seen : List ParsedShred)
    (dataOfSlot : DataOfSlot slot (parsed :: seen)) : ¬ Ingested seen parsed.shred.index := by
  rintro ⟨other, member, same⟩
  have distinct := dataOfSlot.distinct
  rw [List.map_cons, List.nodup_cons] at distinct
  exact distinct.1 (List.mem_map.mpr ⟨other, member, same⟩)

/-- A further shred leaves the blocks there are. -/
theorem block_cons (slot : Nat) (parsed : ParsedShred) (seen : List ParsedShred)
    (dataOfSlot : DataOfSlot slot (parsed :: seen)) (start finish : Nat)
    (block : Block seen start finish) : Block (parsed :: seen) start finish := by
  refine ⟨block.ordered, ?_, ?_, ?_, ?_⟩
  · exact block.opens.imp_right (fun opened => (flagged_cons _ _ _).mpr (Or.inr opened))
  · exact (flagged_cons _ _ _).mpr (Or.inr block.closes)
  · intro index above below flagged
    rcases (flagged_cons _ _ _).mp flagged with ⟨rfl, -⟩ | before
    · exact not_ingested slot parsed seen dataOfSlot (block.full _ above (by omega))
    · exact block.inner index above below before
  · intro index above below
    exact (ingested_cons _ _ _).mpr (Or.inr (block.full index above below))

theorem blockShreds_cons (slot : Nat) (parsed : ParsedShred) (seen : List ParsedShred)
    (dataOfSlot : DataOfSlot slot (parsed :: seen)) (start finish : Nat)
    (block : Block seen start finish) :
    blockShreds (parsed :: seen) start finish = blockShreds seen start finish := by
  apply shredsBetween_congr
  intro index above below
  rw [ingestedAt_cons, if_neg]
  rintro rfl
  exact not_ingested slot parsed seen dataOfSlot (block.full _ above below)

section

variable (slot : Nat) (parsed : ParsedShred) (seen : List ParsedShred)
  (assembler : FecAssembler) (dataOfSlot : DataOfSlot slot (parsed :: seen))
  (assembled : Assembled deshred slot seen assembler)

include dataOfSlot assembled

theorem filledBuffer_eq : assembler.filledBuffer recover parsed =
    (assembler.slotBuffer slot).fill [parsed.shred] := by
  have facts := arrivals_of_data recover assembler parsed assembled.noCoding
    (dataOfSlot.data parsed List.mem_cons_self)
  rw [filledBuffer, facts.1, dataOfSlot.sameSlot parsed List.mem_cons_self]

theorem filled_ends (index : Nat) :
    (assembler.filledBuffer recover parsed).Ends index ↔ Flagged (parsed :: seen) index := by
  rw [filledBuffer_eq recover deshred slot parsed seen assembler dataOfSlot assembled, ends_fill,
    assembled.ends, flagged_cons]
  simp [or_comm]

theorem filled_taken (start finish index : Nat) (block : Block seen start finish)
    (above : start ≤ index) (below : index ≤ finish) :
    (assembler.filledBuffer recover parsed).shredAt index = none := by
  rw [filledBuffer_eq recover deshred slot parsed seen assembler dataOfSlot assembled, fill,
    List.foldl_cons, List.foldl_nil, shredAt_insertDataShred, if_neg]
  · exact assembled.taken start finish index block above below
  · rintro ⟨rfl, -⟩
    exact not_ingested slot parsed seen dataOfSlot (block.full _ above below)

theorem filled_kept (index : Nat)
    (free : ∀ start finish, Block seen start finish → ¬ (start ≤ index ∧ index ≤ finish)) :
    (assembler.filledBuffer recover parsed).shredAt index = ingestedAt (parsed :: seen) index := by
  have before := assembled.kept index free
  rw [filledBuffer_eq recover deshred slot parsed seen assembler dataOfSlot assembled, fill,
    List.foldl_cons, List.foldl_nil, shredAt_insertDataShred, before, ingestedAt_cons]
  by_cases same : parsed.shred.index = index
  · subst same
    rw [if_pos rfl, if_pos]
    exact ⟨rfl, ingestedAt_eq_none seen _ (not_ingested slot parsed seen dataOfSlot)⟩
  · rw [if_neg same, if_neg (fun both => same both.1.symm)]

theorem filled_ingested (index : Nat)
    (held : (assembler.filledBuffer recover parsed).Holds index) :
    Ingested (parsed :: seen) index := by
  rw [filledBuffer_eq recover deshred slot parsed seen assembler dataOfSlot assembled,
    holds_fill] at held
  rw [ingested_cons]
  rcases held with before | ⟨shred, member, same⟩
  · right
    by_contra absent
    have free : ∀ start finish, Block seen start finish →
        ¬ (start ≤ index ∧ index ≤ finish) :=
      fun start finish block inside => absent (block.full index inside.1 inside.2)
    rw [Holds, assembled.kept index free, ingestedAt_eq_none seen index absent] at before
    cases before
  · rw [List.mem_singleton] at member
    subst member
    exact Or.inl same

/-- The blocks one call finds are the ones its shred completes. -/
theorem filled_ready_iff (start finish : Nat) :
    (assembler.filledBuffer recover parsed).Ready start finish ↔
      Block (parsed :: seen) start finish ∧ ¬ Block seen start finish := by
  have sameEnds : (assembler.filledBuffer recover parsed).Ends = Flagged (parsed :: seen) := by
    funext index
    exact propext
      (filled_ends recover deshred slot parsed seen assembler dataOfSlot assembled index)
  constructor
  · intro ready
    constructor
    · rw [Block, ← sameEnds]
      exact ready.mono
        (filled_ingested recover deshred slot parsed seen assembler dataOfSlot assembled)
    · intro block
      have held := ready.full start (Nat.le_refl _) ready.ordered
      rw [Holds, filled_taken recover deshred slot parsed seen assembler dataOfSlot assembled
        start finish start block (Nat.le_refl _) block.ordered] at held
      cases held
  · rintro ⟨block, notBefore⟩
    rw [Ready, sameEnds]
    refine { block with full := ?_ }
    intro index above below
    rw [Holds, filled_kept recover deshred slot parsed seen assembler dataOfSlot assembled index]
    · obtain ⟨found, member, rfl⟩ := block.full index above below
      rw [ingestedAt_of_mem slot _ dataOfSlot found member]
      rfl
    · intro otherStart otherFinish other inside
      have wider := block_cons slot parsed seen dataOfSlot otherStart otherFinish other
      obtain ⟨rfl, rfl⟩ := block.unique wider index ⟨above, below⟩ inside
      exact notBefore other

theorem filled_shreds (start finish : Nat)
    (ready : (assembler.filledBuffer recover parsed).Ready start finish) :
    shredsBetween (assembler.filledBuffer recover parsed).shredAt start finish =
      blockShreds (parsed :: seen) start finish := by
  have split := (filled_ready_iff recover deshred slot parsed seen assembler dataOfSlot assembled
    start finish).mp ready
  apply shredsBetween_congr
  intro index above below
  apply filled_kept recover deshred slot parsed seen assembler dataOfSlot assembled
  intro otherStart otherFinish other inside
  have wider := block_cons slot parsed seen dataOfSlot otherStart otherFinish other
  obtain ⟨rfl, rfl⟩ := split.1.unique wider index ⟨above, below⟩ inside
  exact split.2 other

theorem noneRefilled : assembler.NoneRefilled recover parsed := by
  intro start old finish block
  have readyFacts := fun finish =>
    filled_ready_iff recover deshred slot parsed seen assembler dataOfSlot assembled start finish
  have here := (readyFacts finish).mp
    ((ready_filledBuffer recover assembler parsed start finish).mpr block)
  obtain ⟨entry, member, same⟩ := List.mem_map.mp old
  obtain ⟨oldStart, oldFinish, payload, oldBlock, -, rfl⟩ := (assembled.emitted entry).mp member
  obtain rfl : oldStart = start := (Prod.mk.inj same).2
  have wider := block_cons slot parsed seen dataOfSlot oldStart oldFinish oldBlock
  obtain ⟨-, rfl⟩ := here.1.unique wider oldStart ⟨Nat.le_refl _, here.1.ordered⟩
    ⟨Nat.le_refl _, wider.ordered⟩
  exact here.2 oldBlock

theorem assembled_step :
    Assembled deshred slot (parsed :: seen) (step recover deshred assembler parsed) := by
  have drained := filledBuffer_drained recover deshred assembler parsed assembled.inSlots
  have spec := ingest_spec recover deshred assembler parsed
  have sameSlot := dataOfSlot.sameSlot parsed List.mem_cons_self
  have ready := fun start finish =>
    filled_ready_iff recover deshred slot parsed seen assembler dataOfSlot assembled start finish
  have buffer : (step recover deshred assembler parsed).slotBuffer slot =
      ((assembler.filledBuffer recover parsed).emitReadyBlocks deshred).1 := by
    rw [step, spec.2, if_pos sameSlot.symm]
  refine ⟨?_, inSlots_ingest recover deshred assembler parsed assembled.inSlots, ?_, ?_, ?_, ?_, ?_⟩
  · exact noCoding_ingest recover deshred assembler parsed assembled.noCoding
      (dataOfSlot.data parsed List.mem_cons_self)
  · intro index
    rw [buffer, Ends, drained.ends]
    exact filled_ends recover deshred slot parsed seen assembler dataOfSlot assembled index
  · intro start finish index block above below
    rw [buffer]
    by_cases before : Block seen start finish
    · rw [drained.kept]
      · exact filled_taken recover deshred slot parsed seen assembler dataOfSlot assembled
          start finish index before above below
      · intro otherStart otherFinish other inside
        have split := (ready otherStart otherFinish).mp other
        obtain ⟨rfl, rfl⟩ := block.unique split.1 index ⟨above, below⟩ inside
        exact split.2 before
    · exact drained.taken start finish index ((ready start finish).mpr ⟨block, before⟩) above below
  · intro index free
    rw [buffer, drained.kept]
    · apply filled_kept recover deshred slot parsed seen assembler dataOfSlot assembled
      intro start finish block
      exact free start finish (block_cons slot parsed seen dataOfSlot start finish block)
    · intro start finish other
      exact free start finish ((ready start finish).mp other).1
  · intro entry
    rw [step, spec.1, List.mem_append, assembled.emitted, List.mem_map]
    constructor
    · rintro (⟨start, finish, payload, block, deshreds, rfl⟩ | ⟨⟨start, payload⟩, pushed, rfl⟩)
      · refine ⟨start, finish, payload, block_cons slot parsed seen dataOfSlot _ _ block, ?_, rfl⟩
        rw [blockShreds_cons slot parsed seen dataOfSlot _ _ block]
        exact deshreds
      · obtain ⟨finish, found, deshreds⟩ := (drained.pushed start payload).mp pushed
        rw [filled_shreds recover deshred slot parsed seen assembler dataOfSlot assembled
          start finish found] at deshreds
        exact ⟨start, finish, payload, ((ready start finish).mp found).1, deshreds,
          by rw [sameSlot]⟩
    · rintro ⟨start, finish, payload, block, deshreds, rfl⟩
      by_cases before : Block seen start finish
      · left
        rw [blockShreds_cons slot parsed seen dataOfSlot _ _ before] at deshreds
        exact ⟨start, finish, payload, before, deshreds, rfl⟩
      · right
        have found := (ready start finish).mpr ⟨block, before⟩
        refine ⟨(start, payload), ?_, by rw [sameSlot]⟩
        apply (drained.pushed start payload).mpr
        rw [← filled_shreds recover deshred slot parsed seen assembler dataOfSlot assembled
          start finish found] at deshreds
        exact ⟨finish, found, deshreds⟩
  · exact nodup_step recover deshred assembler parsed assembled.inSlots assembled.distinct
      (noneRefilled recover deshred slot parsed seen assembler dataOfSlot assembled)

end

theorem assembled_new (slot : Nat) : Assembled deshred slot [] FecAssembler.new := by
  have noBlock : ∀ start finish, ¬ Block [] start finish := by
    intro start finish block
    obtain ⟨parsed, member, -⟩ := block.closes
    cases member
  have blank : FecAssembler.new.slotBuffer slot = SlotBuffer.empty := by
    simp [slotBuffer, FecAssembler.new]
  refine ⟨?_, inSlots_new, ?_, ?_, ?_, ?_, List.nodup_nil⟩
  · intro key set found
    simp [FecAssembler.new] at found
  · intro index
    rw [blank]
    simp [Ends, SlotBuffer.empty, Flagged]
  · intro start finish index block
    exact absurd block (noBlock start finish)
  · intro index _
    rw [blank]
    simp [SlotBuffer.shredAt, SlotBuffer.empty, ingestedAt]
  · intro entry
    constructor
    · intro member
      cases member
    · rintro ⟨start, finish, -, block, -⟩
      exact absurd block (noBlock start finish)

theorem assembled_run (slot : Nat) (inputs seen : List ParsedShred) (assembler : FecAssembler)
    (dataOfSlot : DataOfSlot slot (inputs.reverse ++ seen))
    (assembled : Assembled deshred slot seen assembler) :
    Assembled deshred slot (inputs.reverse ++ seen)
      (run (step recover deshred) assembler inputs) := by
  induction inputs generalizing seen assembler with
  | nil => exact assembled
  | cons parsed rest ih =>
      have shape : (parsed :: rest).reverse ++ seen = rest.reverse ++ (parsed :: seen) := by
        rw [List.reverse_cons, List.append_assoc, List.singleton_append]
      rw [shape] at dataOfSlot ⊢
      have tail : DataOfSlot slot (parsed :: seen) :=
        ⟨fun other member => dataOfSlot.data other (List.mem_append_right _ member),
          fun other member => dataOfSlot.sameSlot other (List.mem_append_right _ member),
          (by
            have distinct := dataOfSlot.distinct
            rw [List.map_append] at distinct
            exact (List.nodup_append.mp distinct).2.1)⟩
      rw [run_cons]
      exact ih (parsed :: seen) _ dataOfSlot
        (assembled_step recover deshred slot parsed seen assembler tail assembled)

/-- In every order of arrival the assembler emits exactly the blocks of the set,
each once. -/
theorem blocks_exact_in_every_order (slot : Nat) (shreds : List ParsedShred)
    (dataOfSlot : DataOfSlot slot shreds)
    (deshreds : ∀ block, ∃ payload, deshred block = .ok payload)
    (order : List ParsedShred) (perm : order.Perm shreds) :
    (∀ start, (slot, start) ∈ (run (step recover deshred) FecAssembler.new order).emittedBlocks ↔
        ∃ finish, Block shreds start finish) ∧
      (∀ block, block ∈ (run (step recover deshred) FecAssembler.new order).complete ↔
        ∃ start finish payload, Block shreds start finish ∧
          deshred (blockShreds shreds start finish) = .ok payload ∧
          block = (slot, start, [payload])) ∧
      (run (step recover deshred) FecAssembler.new order).emittedBlocks.Nodup ∧
      (run (step recover deshred) FecAssembler.new order).complete.Perm
        (run (step recover deshred) FecAssembler.new shreds).complete := by
  have reached := fun (arrived : List ParsedShred) (same : arrived.Perm shreds) =>
    assembled_run recover deshred slot arrived [] FecAssembler.new
      (dataOfSlot_perm slot shreds _ dataOfSlot (by
        rw [List.append_nil]
        exact (List.reverse_perm arrived).trans same))
      (assembled_new deshred slot)
  have emitted : ∀ arrived : List ParsedShred, arrived.Perm shreds → ∀ block,
      block ∈ (run (step recover deshred) FecAssembler.new arrived).complete ↔
        ∃ start finish payload, Block shreds start finish ∧
          deshred (blockShreds shreds start finish) = .ok payload ∧
          block = (slot, start, [payload]) := by
    intro arrived same block
    have all : (arrived.reverse ++ []).Perm shreds := by
      rw [List.append_nil]
      exact (List.reverse_perm arrived).trans same
    rw [(reached arrived same).emitted]
    simp only [block_perm shreds _ all, blockShreds, ingestedAt_perm slot shreds _ dataOfSlot
      (dataOfSlot_perm slot shreds _ dataOfSlot all) all]
  have once := fun arrived same => (reached arrived same).distinct
  refine ⟨?_, emitted order perm, once order perm, ?_⟩
  · intro start
    constructor
    · intro member
      obtain ⟨entry, inComplete, same⟩ := List.mem_map.mp member
      obtain ⟨found, finish, payload, block, -, rfl⟩ := (emitted order perm entry).mp inComplete
      obtain rfl : found = start := (Prod.mk.inj same).2
      exact ⟨finish, block⟩
    · rintro ⟨finish, block⟩
      obtain ⟨payload, accepted⟩ := deshreds (blockShreds shreds start finish)
      apply List.mem_map.mpr
      exact ⟨(slot, start, [payload]), (emitted order perm _).mpr
        ⟨start, finish, payload, block, accepted, rfl⟩, rfl⟩
  · apply (List.perm_ext_iff_of_nodup (List.Nodup.of_map _ (once order perm))
      (List.Nodup.of_map _ (once shreds (List.Perm.refl _)))).mpr
    intro block
    rw [emitted order perm, emitted shreds (List.Perm.refl _)]

end

/-- A data shred of slot 5 with one byte of payload. -/
def shortShred (index : Nat) (inSlot : index < maxDataShredsPerSlot) (closes : Bool) :
    ParsedShred :=
  ⟨[], { payload := [UInt8.ofNat index], slot := 5, index := index, fecSetIndex := 0
         isData := true, dataComplete := closes, lastInSlot := false, indexInSlot := inSlot
         sized := by
          intro variant read
          simp [RecoveryVariant.fromPayload, shredVariantOffset] at read }⟩

def twoShreds : List ParsedShred :=
  [shortShred 0 maxDataShredsPerSlot_pos false, shortShred 1 one_lt_maxDataShredsPerSlot true]

theorem twoShreds_either_order :
    (run (step (fun _ => .ok []) (fun shreds => .ok (shreds.flatMap Shred.payload)))
        FecAssembler.new twoShreds.reverse).complete.Perm
      (run (step (fun _ => .ok []) (fun shreds => .ok (shreds.flatMap Shred.payload)))
        FecAssembler.new twoShreds).complete ∧
    (run (step (fun _ => .ok []) (fun shreds => .ok (shreds.flatMap Shred.payload)))
        FecAssembler.new twoShreds).complete = [(5, 0, [[0, 1]])] :=
  ⟨(blocks_exact_in_every_order (fun _ => .ok [])
      (fun shreds => .ok (shreds.flatMap Shred.payload)) 5 twoShreds
      ⟨by decide +kernel, by decide +kernel, by decide +kernel⟩ (fun block => ⟨_, rfl⟩)
      twoShreds.reverse (List.reverse_perm twoShreds)).2.2.2,
    by decide +kernel⟩

end Helios.ArrivalOrder
