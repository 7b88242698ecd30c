import Helios.FecAssembler

/-! Which blocks the assembler finds in a slot buffer and what it leaves. -/

namespace Helios

/-- A run of held indices from just behind one boundary up to the next. -/
structure IsBlock (held boundary : Nat → Prop) (start finish : Nat) : Prop where
  ordered : start ≤ finish
  opens : start = 0 ∨ boundary (start - 1)
  closes : boundary finish
  inner : ∀ index, start ≤ index → index < finish → ¬ boundary index
  full : ∀ index, start ≤ index → index ≤ finish → held index

namespace IsBlock

variable {held boundary : Nat → Prop} {start finish otherStart otherFinish : Nat}

/-- Two blocks between the same boundaries that meet are one. -/
theorem unique (block : IsBlock held boundary start finish)
    (other : IsBlock held boundary otherStart otherFinish) (index : Nat)
    (inBlock : start ≤ index ∧ index ≤ finish)
    (inOther : otherStart ≤ index ∧ index ≤ otherFinish) :
    start = otherStart ∧ finish = otherFinish := by
  have sameFinish : finish = otherFinish := by
    rcases lt_trichotomy finish otherFinish with less | same | more
    · exact absurd block.closes (other.inner finish (by omega) less)
    · exact same
    · exact absurd other.closes (block.inner otherFinish (by omega) more)
  have notInside : ∀ {first second : Nat}, IsBlock held boundary first finish →
      IsBlock held boundary second finish → second ≤ index → ¬ first < second := by
    intro first second blockFirst blockSecond below less
    rcases blockSecond.opens with zero | opened
    · omega
    · exact blockFirst.inner (second - 1) (by omega) (by omega) opened
  subst sameFinish
  have first := notInside block other inOther.1
  have second := notInside other block inBlock.1
  exact ⟨by omega, rfl⟩

theorem mono {more : Nat → Prop} (block : IsBlock held boundary start finish)
    (wider : ∀ index, held index → more index) : IsBlock more boundary start finish :=
  { block with full := fun index above below => wider index (block.full index above below) }

/-- Taking a block's indices away leaves exactly the other blocks. -/
theorem remaining_iff (taken : IsBlock held boundary start finish) :
    IsBlock (fun index => held index ∧ ¬ (start ≤ index ∧ index ≤ finish)) boundary
        otherStart otherFinish ↔
      IsBlock held boundary otherStart otherFinish ∧ otherStart ≠ start := by
  constructor
  · intro block
    refine ⟨block.mono (fun index here => here.1), ?_⟩
    intro same
    have here := block.full otherStart (Nat.le_refl _) block.ordered
    have ordered := taken.ordered
    exact here.2 ⟨by omega, by omega⟩
  · rintro ⟨block, different⟩
    refine { block with full := ?_ }
    intro index above below
    refine ⟨block.full index above below, ?_⟩
    intro inTaken
    exact different (taken.unique block index inTaken ⟨above, below⟩).1.symm

end IsBlock

/-- The shreds of a range of indices, in order. -/
def shredsBetween (shredAt : Nat → Option Shred) (start finish : Nat) : List Shred :=
  (List.range' start (finish + 1 - start)).filterMap shredAt

theorem shredsBetween_congr (first second : Nat → Option Shred) (start finish : Nat)
    (same : ∀ index, start ≤ index → index ≤ finish → first index = second index) :
    shredsBetween first start finish = shredsBetween second start finish := by
  apply List.filterMap_congr
  intro index member
  have bounds := List.mem_range'_1.mp member
  exact same index bounds.1 (by omega)

namespace SlotBuffer

open Machine

def shredAt (buffer : SlotBuffer) (index : Nat) : Option Shred :=
  HashMap.get buffer.dataShreds index

def Holds (buffer : SlotBuffer) (index : Nat) : Prop := (buffer.shredAt index).isSome = true

def Ends (buffer : SlotBuffer) (index : Nat) : Prop := index ∈ buffer.completedDataIndexes

/-- A complete data block standing in the buffer. -/
def Ready (buffer : SlotBuffer) (start finish : Nat) : Prop :=
  IsBlock buffer.Holds buffer.Ends start finish

/-- All indices are those of shreds of one slot. -/
def InSlot (buffer : SlotBuffer) : Prop :=
  (∀ index, buffer.Holds index → index < maxDataShredsPerSlot) ∧
    ∀ index, buffer.Ends index → index < maxDataShredsPerSlot

/-- The two counts the scan compares agree exactly on a full range. -/
theorem count_eq_expected_iff (buffer : SlotBuffer) (start finish : Nat) (le : start ≤ finish)
    (bound : finish < maxDataShredsPerSlot) :
    wrap 32 (HashMap.range buffer.dataShreds start finish).length =
        saturatingAdd32 (finish - start) 1 ↔
      ∀ index, start ≤ index → index ≤ finish → buffer.Holds index := by
  have few := HashMap.length_range_le buffer.dataShreds start finish
  have exactly := HashMap.length_range_eq_iff buffer.dataShreds start finish
  rw [maxDataShredsPerSlot] at bound
  rw [wrap_of_lt 32 _ (by norm_num; omega)]
  have expected : saturatingAdd32 (finish - start) 1 = finish + 1 - start := by
    rw [saturatingAdd32, u32Max]
    omega
  rw [expected]
  exact exactly

/-- The ends from an index on, in order. -/
structure EndsFrom (buffer : SlotBuffer) (startIndex : Nat) (ends : List Nat) : Prop where
  sorted : ends.Pairwise (· < ·)
  exactly : ∀ index, index ∈ ends ↔ buffer.Ends index ∧ startIndex ≤ index

namespace EndsFrom

variable {buffer : SlotBuffer} {startIndex endIndex : Nat} {rest : List Nat}
  (ahead : EndsFrom buffer startIndex (endIndex :: rest))

include ahead

theorem head_isEnd : buffer.Ends endIndex ∧ startIndex ≤ endIndex :=
  (ahead.exactly endIndex).mp List.mem_cons_self

theorem le_of_end (index : Nat) (ended : buffer.Ends index) (above : startIndex ≤ index) :
    endIndex ≤ index := by
  rcases List.mem_cons.mp ((ahead.exactly index).mpr ⟨ended, above⟩) with same | member
  · exact Nat.le_of_eq same.symm
  · exact Nat.le_of_lt ((List.pairwise_cons.mp ahead.sorted).1 index member)

theorem tail : EndsFrom buffer (endIndex + 1) rest := by
  have later := (List.pairwise_cons.mp ahead.sorted).1
  have head := ahead.head_isEnd
  constructor
  · exact (List.pairwise_cons.mp ahead.sorted).2
  · intro index
    constructor
    · intro member
      exact ⟨((ahead.exactly index).mp (List.mem_cons_of_mem _ member)).1, later index member⟩
    · rintro ⟨ended, above⟩
      rcases List.mem_cons.mp ((ahead.exactly index).mpr ⟨ended, by omega⟩) with same | member
      · omega
      · exact member

/-- A block opening at or before the first end opens where the scan stands and ends
there. -/
theorem block_here (start finish : Nat) (above : startIndex ≤ start) (below : start ≤ endIndex)
    (ready : buffer.Ready start finish) : start = startIndex ∧ finish = endIndex := by
  constructor
  · rcases ready.opens with zero | opened
    · omega
    · by_contra different
      have := ahead.le_of_end (start - 1) opened (by omega)
      omega
  · have reached := ahead.le_of_end finish ready.closes (above.trans ready.ordered)
    rcases Nat.lt_or_eq_of_le reached with less | same
    · exact absurd ahead.head_isEnd.1 (ready.inner endIndex below less)
    · exact same.symm

end EndsFrom

theorem endsFrom_sort (buffer : SlotBuffer) :
    EndsFrom buffer 0 (buffer.completedDataIndexes.sort (· ≤ ·)) := by
  constructor
  · exact (Finset.sortedLT_sort _).pairwise
  · intro index
    rw [Finset.mem_sort, Ends]
    simp

/-- What the scan returns, if it starts behind a boundary and has all later
boundaries ahead. -/
theorem scanBoundaries_spec (buffer : SlotBuffer) (firstAvailable : Nat)
    (inSlot : buffer.InSlot) (least : ∀ index, buffer.Holds index → firstAvailable ≤ index)
    (ends : List Nat) (startIndex : Nat) (ahead : EndsFrom buffer startIndex ends)
    (opens : startIndex = 0 ∨ buffer.Ends (startIndex - 1)) :
    match scanBoundaries buffer.dataShreds firstAvailable startIndex ends with
    | some (indices, shreds) => ∃ start finish, buffer.Ready start finish ∧
        indices = List.range' start (finish + 1 - start) ∧
        shreds = shredsBetween buffer.shredAt start finish
    | none => ∀ start finish, startIndex ≤ start → ¬ buffer.Ready start finish := by
  induction ends generalizing startIndex with
  | nil =>
      intro start finish above ready
      exact List.not_mem_nil ((ahead.exactly finish).mpr ⟨ready.closes, above.trans ready.ordered⟩)
  | cons endIndex rest ih =>
      have isEnd := ahead.head_isEnd
      have small := inSlot.2 endIndex isEnd.1
      have next : saturatingAdd32 endIndex 1 = endIndex + 1 := by
        rw [maxDataShredsPerSlot] at small
        rw [saturatingAdd32, u32Max]
        omega
      have resumed := ih (endIndex + 1) ahead.tail (Or.inr isEnd.1)
      have skip : (∀ finish, ¬ buffer.Ready startIndex finish) →
          match scanBoundaries buffer.dataShreds firstAvailable (endIndex + 1) rest with
          | some (indices, shreds) => ∃ start finish, buffer.Ready start finish ∧
              indices = List.range' start (finish + 1 - start) ∧
              shreds = shredsBetween buffer.shredAt start finish
          | none => ∀ start finish, startIndex ≤ start → ¬ buffer.Ready start finish := by
        intro notHere
        revert resumed
        cases scanBoundaries buffer.dataShreds firstAvailable (endIndex + 1) rest with
        | some found => exact id
        | none =>
            intro noneLater start finish above ready
            by_cases below : start ≤ endIndex
            · obtain ⟨rfl, rfl⟩ := ahead.block_here start finish above below ready
              exact notHere finish ready
            · exact noneLater start finish (by omega) ready
      rw [scanBoundaries]
      by_cases early : startIndex < firstAvailable
      · rw [if_pos early, next]
        apply skip
        intro finish ready
        have := least startIndex (ready.full startIndex (Nat.le_refl _) ready.ordered)
        omega
      · rw [if_neg early]
        have counted := count_eq_expected_iff buffer startIndex endIndex isEnd.2 small
        by_cases full : wrap 32 (HashMap.range buffer.dataShreds startIndex endIndex).length =
            saturatingAdd32 (endIndex - startIndex) 1
        · simp only [if_pos full]
          refine ⟨startIndex, endIndex, ?_, ?_, HashMap.map_snd_range _ _ _⟩
          · refine ⟨isEnd.2, opens, isEnd.1, ?_, counted.mp full⟩
            intro index above below ended
            have := ahead.le_of_end index ended above
            omega
          · exact HashMap.map_fst_range _ _ _ (counted.mp full)
        · simp only [if_neg full, next]
          apply skip
          intro finish ready
          obtain ⟨-, rfl⟩ := ahead.block_here startIndex finish (Nat.le_refl _) isEnd.2 ready
          exact full (counted.mpr ready.full)

theorem findCompleteDataBlock_spec (buffer : SlotBuffer) (inSlot : buffer.InSlot) :
    match buffer.findCompleteDataBlock with
    | some (indices, shreds) => ∃ start finish, buffer.Ready start finish ∧
        indices = List.range' start (finish + 1 - start) ∧
        shreds = shredsBetween buffer.shredAt start finish
    | none => ∀ start finish, ¬ buffer.Ready start finish := by
  rw [findCompleteDataBlock]
  cases least : HashMap.firstKey buffer.dataShreds with
  | none =>
      intro start finish ready
      have here := ready.full start (Nat.le_refl _) ready.ordered
      rw [Holds, shredAt, (HashMap.firstKey_eq_none_iff _).mp least start] at here
      cases here
  | some firstAvailable =>
      have spec := scanBoundaries_spec buffer firstAvailable inSlot
        (fun index here => HashMap.firstKey_le _ _ _ least here)
        (buffer.completedDataIndexes.sort (· ≤ ·)) 0 buffer.endsFrom_sort (Or.inl rfl)
      revert spec
      dsimp only
      cases scanBoundaries buffer.dataShreds firstAvailable 0
          (buffer.completedDataIndexes.sort (· ≤ ·)) with
      | some found => exact id
      | none =>
          intro noBlock start finish
          exact noBlock start finish (Nat.zero_le _)

@[simp] theorem removeIndices_ends (buffer : SlotBuffer) (indices : List Nat) (index : Nat) :
    (buffer.removeIndices indices).Ends index ↔ buffer.Ends index := Iff.rfl

theorem shredAt_removeIndices (buffer : SlotBuffer) (indices : List Nat) (index : Nat) :
    (buffer.removeIndices indices).shredAt index =
      if index ∈ indices then none else buffer.shredAt index :=
  HashMap.get_foldl_erase buffer.dataShreds indices index

/-- Taking a block out leaves the shreds outside its range. -/
theorem shredAt_removeBlock (buffer : SlotBuffer) (start finish index : Nat) :
    (buffer.removeIndices (List.range' start (finish + 1 - start))).shredAt index =
      if start ≤ index ∧ index ≤ finish then none else buffer.shredAt index := by
  rw [shredAt_removeIndices]
  by_cases inside : start ≤ index ∧ index ≤ finish
  · rw [if_pos inside, if_pos (List.mem_range'_1.mpr ⟨inside.1, by omega⟩)]
  · rw [if_neg inside, if_neg]
    intro member
    have bounds := List.mem_range'_1.mp member
    exact inside ⟨bounds.1, by omega⟩

theorem holds_removeBlock (buffer : SlotBuffer) (start finish index : Nat) :
    (buffer.removeIndices (List.range' start (finish + 1 - start))).Holds index ↔
      buffer.Holds index ∧ ¬ (start ≤ index ∧ index ≤ finish) := by
  rw [Holds, shredAt_removeBlock]
  by_cases inside : start ≤ index ∧ index ≤ finish
  · simp [inside]
  · rw [if_neg inside]
    exact ⟨fun here => ⟨here, inside⟩, fun here => here.1⟩

theorem inSlot_removeBlock (buffer : SlotBuffer) (start finish : Nat) (inSlot : buffer.InSlot) :
    (buffer.removeIndices (List.range' start (finish + 1 - start))).InSlot :=
  ⟨fun index here => inSlot.1 index ((holds_removeBlock buffer start finish index).mp here).1,
    inSlot.2⟩

theorem ready_removeBlock (buffer : SlotBuffer) (start finish otherStart otherFinish : Nat)
    (ready : buffer.Ready start finish) :
    (buffer.removeIndices (List.range' start (finish + 1 - start))).Ready otherStart otherFinish ↔
      buffer.Ready otherStart otherFinish ∧ otherStart ≠ start := by
  have sameHeld : (buffer.removeIndices (List.range' start (finish + 1 - start))).Holds =
      fun index => buffer.Holds index ∧ ¬ (start ≤ index ∧ index ≤ finish) := by
    funext index
    exact propext (holds_removeBlock buffer start finish index)
  unfold Ready
  rw [sameHeld]
  exact ready.remaining_iff

theorem removeBlock_fewer (buffer : SlotBuffer) (start finish : Nat)
    (ready : buffer.Ready start finish) :
    (buffer.removeIndices (List.range' start (finish + 1 - start))).dataShreds.entries.length <
      buffer.dataShreds.entries.length := by
  have ordered := ready.ordered
  have first : List.range' start (finish + 1 - start) =
      start :: List.range' (start + 1) (finish - start) := by
    rw [show finish + 1 - start = (finish - start) + 1 by omega, List.range'_succ]
  rw [first, removeIndices, List.foldl_cons]
  exact Nat.lt_of_le_of_lt (HashMap.length_foldl_erase_le _ _)
    (HashMap.length_erase_lt _ _ (ready.full start (Nat.le_refl _) ordered))

/-- What the emission makes of a buffer: all ready blocks leave it, and those
that deshred are pushed, each once. -/
structure Drained (deshred : List Shred → Except String Bytes) (buffer : SlotBuffer)
    (result : SlotBuffer × List (Nat × Bytes)) : Prop where
  ends : result.1.completedDataIndexes = buffer.completedDataIndexes
  taken : ∀ start finish index, buffer.Ready start finish → start ≤ index → index ≤ finish →
    result.1.shredAt index = none
  kept : ∀ index, (∀ start finish, buffer.Ready start finish →
      ¬ (start ≤ index ∧ index ≤ finish)) → result.1.shredAt index = buffer.shredAt index
  pushed : ∀ start payload, (start, payload) ∈ result.2 ↔ ∃ finish, buffer.Ready start finish ∧
    deshred (shredsBetween buffer.shredAt start finish) = .ok payload
  distinct : (result.2.map Prod.fst).Nodup

variable (deshred : List Shred → Except String Bytes)

theorem drained_of_none (buffer : SlotBuffer) (none : ∀ start finish, ¬ buffer.Ready start finish) :
    Drained deshred buffer (buffer, []) where
  ends := rfl
  taken := fun start finish _ ready => absurd ready (none start finish)
  kept := fun _ _ => rfl
  pushed := by
    intro start payload
    constructor
    · intro member
      cases member
    · rintro ⟨finish, ready, -⟩
      exact absurd ready (none start finish)
  distinct := List.nodup_nil

theorem outside_of_ready (buffer : SlotBuffer) (start finish otherStart otherFinish index : Nat)
    (ready : buffer.Ready start finish) (other : buffer.Ready otherStart otherFinish)
    (different : otherStart ≠ start) (inOther : otherStart ≤ index ∧ index ≤ otherFinish) :
    ¬ (start ≤ index ∧ index ≤ finish) := by
  intro inside
  exact different (ready.unique other index inside inOther).1.symm

theorem finish_of_ready (buffer : SlotBuffer) (start finish otherFinish : Nat)
    (ready : buffer.Ready start finish) (other : buffer.Ready start otherFinish) :
    otherFinish = finish :=
  (other.unique ready start ⟨Nat.le_refl _, other.ordered⟩ ⟨Nat.le_refl _, ready.ordered⟩).2

section OnePass

variable (buffer : SlotBuffer) (start finish : Nat) (ready : buffer.Ready start finish)
  (rest : SlotBuffer × List (Nat × Bytes))
  (drained : Drained deshred (buffer.removeIndices (List.range' start (finish + 1 - start))) rest)

include ready drained

theorem taken_of_step (otherStart otherFinish index : Nat)
    (other : buffer.Ready otherStart otherFinish) (above : otherStart ≤ index)
    (below : index ≤ otherFinish) : rest.1.shredAt index = none := by
  have others := fun otherStart otherFinish =>
    ready_removeBlock buffer start finish otherStart otherFinish ready
  by_cases same : otherStart = start
  · subst same
    have inside : index ≤ finish := by
      rw [← finish_of_ready buffer otherStart finish otherFinish ready other]
      exact below
    -- this pass takes the block, and no later block reaches into it
    rw [drained.kept, shredAt_removeBlock, if_pos ⟨above, inside⟩]
    intro laterStart laterFinish later reaches
    have split := (others laterStart laterFinish).mp later
    exact outside_of_ready buffer otherStart finish laterStart laterFinish index ready split.1
      split.2 reaches ⟨above, inside⟩
  · exact drained.taken otherStart otherFinish index ((others _ _).mpr ⟨other, same⟩) above below

theorem kept_of_step (index : Nat)
    (free : ∀ otherStart otherFinish, buffer.Ready otherStart otherFinish →
      ¬ (otherStart ≤ index ∧ index ≤ otherFinish)) :
    rest.1.shredAt index = buffer.shredAt index := by
  rw [drained.kept, shredAt_removeBlock, if_neg (free start finish ready)]
  intro otherStart otherFinish other
  have split := (ready_removeBlock buffer start finish otherStart otherFinish ready).mp other
  exact free otherStart otherFinish split.1

/-- The later passes push the other blocks. -/
theorem pushed_later (otherStart : Nat) (payload : Bytes) :
    (otherStart, payload) ∈ rest.2 ↔
      otherStart ≠ start ∧ ∃ otherFinish, buffer.Ready otherStart otherFinish ∧
        deshred (shredsBetween buffer.shredAt otherStart otherFinish) = .ok payload := by
  have others := fun otherFinish =>
    ready_removeBlock buffer start finish otherStart otherFinish ready
  have sameShreds : ∀ otherFinish, buffer.Ready otherStart otherFinish → otherStart ≠ start →
      shredsBetween (buffer.removeIndices
        (List.range' start (finish + 1 - start))).shredAt otherStart otherFinish =
      shredsBetween buffer.shredAt otherStart otherFinish := by
    intro otherFinish other different
    apply shredsBetween_congr
    intro index above below
    rw [shredAt_removeBlock, if_neg]
    exact outside_of_ready buffer start finish otherStart otherFinish index ready other different
      ⟨above, below⟩
  rw [drained.pushed]
  constructor
  · rintro ⟨otherFinish, other, deshreds⟩
    have split := (others otherFinish).mp other
    rw [sameShreds otherFinish split.1 split.2] at deshreds
    exact ⟨split.2, otherFinish, split.1, deshreds⟩
  · rintro ⟨different, otherFinish, other, deshreds⟩
    refine ⟨otherFinish, (others otherFinish).mpr ⟨other, different⟩, ?_⟩
    rw [sameShreds otherFinish other different]
    exact deshreds

/-- What one pass takes out and what the later passes do make a drained buffer. -/
theorem drained_of_step :
    Drained deshred buffer
      (match deshred (shredsBetween buffer.shredAt start finish) with
      | .ok payload => (rest.1, (start, payload) :: rest.2)
      | .error _ => rest) := by
  have later := pushed_later deshred buffer start finish ready rest drained
  have taken := taken_of_step deshred buffer start finish ready rest drained
  have kept := kept_of_step deshred buffer start finish ready rest drained
  cases deshreds : deshred (shredsBetween buffer.shredAt start finish) with
  | ok payload =>
      refine ⟨drained.ends, taken, kept, ?_, ?_⟩
      · intro otherStart other
        dsimp only
        rw [List.mem_cons, later]
        constructor
        · rintro (same | ⟨-, pushed⟩)
          · obtain ⟨rfl, rfl⟩ := Prod.mk.inj same
            exact ⟨finish, ready, deshreds⟩
          · exact pushed
        · rintro ⟨otherFinish, otherReady, otherDeshreds⟩
          by_cases same : otherStart = start
          · subst same
            rw [finish_of_ready buffer otherStart finish otherFinish ready otherReady,
              deshreds] at otherDeshreds
            left
            rw [Except.ok.inj otherDeshreds]
          · exact Or.inr ⟨same, otherFinish, otherReady, otherDeshreds⟩
      · dsimp only
        rw [List.map_cons, List.nodup_cons]
        refine ⟨?_, drained.distinct⟩
        intro member
        obtain ⟨⟨otherStart, other⟩, inRest, rfl⟩ := List.mem_map.mp member
        exact ((later _ _).mp inRest).1 rfl
  | error message =>
      refine ⟨drained.ends, taken, kept, ?_, drained.distinct⟩
      intro otherStart other
      rw [later]
      constructor
      · exact fun pushed => pushed.2
      · rintro ⟨otherFinish, otherReady, otherDeshreds⟩
        refine ⟨?_, otherFinish, otherReady, otherDeshreds⟩
        rintro rfl
        rw [finish_of_ready buffer otherStart finish otherFinish ready otherReady,
          deshreds] at otherDeshreds
        cases otherDeshreds

end OnePass

theorem emitLoop_drained (passes : Nat) (buffer : SlotBuffer) (inSlot : buffer.InSlot)
    (enough : buffer.dataShreds.entries.length ≤ passes) :
    Drained deshred buffer (emitLoop deshred passes buffer) := by
  induction passes generalizing buffer with
  | zero =>
      rw [emitLoop]
      apply drained_of_none
      intro start finish ready
      have fewer := removeBlock_fewer buffer start finish ready
      omega
  | succ passes ih =>
      have spec := findCompleteDataBlock_spec buffer inSlot
      rw [emitLoop]
      cases found : buffer.findCompleteDataBlock with
      | none =>
          rw [found] at spec
          exact drained_of_none deshred buffer spec
      | some block =>
          obtain ⟨indices, shreds⟩ := block
          rw [found] at spec
          obtain ⟨start, finish, ready, rfl, rfl⟩ := spec
          have fewer := removeBlock_fewer buffer start finish ready
          have rest := ih _ (inSlot_removeBlock buffer start finish inSlot) (by omega)
          have ordered := ready.ordered
          have head : (List.range' start (finish + 1 - start)).headD 0 = start := by
            rw [show finish + 1 - start = (finish - start) + 1 by omega, List.range'_succ]
            rfl
          dsimp only
          rw [head]
          exact drained_of_step deshred buffer start finish ready _ rest

theorem emitReadyBlocks_drained (buffer : SlotBuffer) (inSlot : buffer.InSlot) :
    Drained deshred buffer (buffer.emitReadyBlocks deshred) :=
  emitLoop_drained deshred _ buffer inSlot (Nat.le_refl _)

end SlotBuffer

end Helios
