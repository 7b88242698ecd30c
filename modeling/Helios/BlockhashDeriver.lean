import Helios.Runs
import Helios.Shred
import Mathlib.Data.List.Perm.Basic

/-! The blockhash taken from decoded entries, and the order blocks arrive in. -/

namespace Helios

namespace Arrival

variable {α κ : Type} [LinearOrder κ] (key : α → κ)

/-- The members of greatest key, in the order they came. -/
def greatest (members : List α) : List α :=
  members.filter (fun member => ∀ other ∈ members, key other ≤ key member)

theorem mem_greatest (members : List α) (member : α) :
    member ∈ greatest key members ↔
      member ∈ members ∧ ∀ other ∈ members, key other ≤ key member := by
  simp [greatest]

theorem greatest_level (members : List α) (one other : α)
    (first : one ∈ greatest key members) (second : other ∈ greatest key members) :
    key one = key other := by
  rw [mem_greatest] at first second
  exact le_antisymm (second.2 one first.1) (first.2 other second.1)

theorem greatest_perm (left right : List α) (same : left.Perm right) (member : α) :
    member ∈ greatest key left ↔ member ∈ greatest key right := by
  rw [mem_greatest, mem_greatest, same.mem_iff]
  constructor
  · rintro ⟨inside, bound⟩
    exact ⟨inside, fun other later => bound other (same.mem_iff.mpr later)⟩
  · rintro ⟨inside, bound⟩
    exact ⟨inside, fun other later => bound other (same.mem_iff.mp later)⟩

theorem greatest_concat_above (members : List α) (last : α)
    (above : ∀ other ∈ members, key other < key last) :
    greatest key (members ++ [last]) = [last] := by
  have nothing : members.filter
      (fun member => ∀ other ∈ members ++ [last], key other ≤ key member) = [] := by
    rw [List.filter_eq_nil_iff]
    intro member inside
    simp only [decide_eq_true_eq]
    intro bound
    exact absurd (above member inside) (not_lt_of_ge (bound last (by simp)))
  have self : ∀ other ∈ members ++ [last], key other ≤ key last := by
    intro other inside
    rcases List.mem_append.mp inside with before | here
    · exact (above other before).le
    · rw [List.mem_singleton.mp here]
  rw [greatest, List.filter_append, nothing, List.nil_append, List.filter_cons_of_pos]
  · rfl
  · simpa using self

theorem greatest_concat_level (members : List α) (top last : α)
    (held : top ∈ greatest key members) (level : key top = key last) :
    greatest key (members ++ [last]) = greatest key members ++ [last] := by
  have bound := ((mem_greatest key members top).mp held).2
  rw [greatest, greatest, List.filter_append]
  congr 1
  · apply List.filter_congr
    intro member inside
    rw [decide_eq_decide]
    constructor
    · intro all other before
      exact all other (List.mem_append_left _ before)
    · intro all other member'
      rcases List.mem_append.mp member' with before | here
      · exact all other before
      · rw [List.mem_singleton.mp here, ← level]
        exact all top ((mem_greatest key members top).mp held).1
  · rw [List.filter_cons_of_pos]
    · rfl
    · simp only [decide_eq_true_eq]
      intro other inside
      rcases List.mem_append.mp inside with before | here
      · rw [← level]
        exact bound other before
      · rw [List.mem_singleton.mp here]

theorem greatest_concat_below (members : List α) (top last : α)
    (held : top ∈ greatest key members) (below : key last < key top) :
    greatest key (members ++ [last]) = greatest key members := by
  have inside := ((mem_greatest key members top).mp held).1
  rw [greatest, greatest, List.filter_append, List.filter_cons_of_neg, List.filter_nil,
    List.append_nil]
  · apply List.filter_congr
    intro member here
    rw [decide_eq_decide]
    constructor
    · intro all other before
      exact all other (List.mem_append_left _ before)
    · intro all other member'
      rcases List.mem_append.mp member' with before | here
      · exact all other before
      · rw [List.mem_singleton.mp here]
        exact below.le.trans (all top inside)
  · simp only [decide_eq_true_eq]
    intro all
    exact absurd below (not_lt_of_ge (all top (List.mem_append_left _ inside)))

end Arrival

/-- A hash of one byte over and over; the default one is all zero. -/
def Hash.replicate (byte : UInt8) : Hash := ⟨List.replicate 32 byte, rfl⟩

def Hash.default : Hash := Hash.replicate 0

structure Entry where
  hash : Hash
  deriving DecidableEq

/-- The entries decoded from one data block, with the slot and the shred index the
assembler hands on with it. -/
structure DataBlock where
  slot : Nat
  startIndex : Nat
  entries : List Entry
  deriving DecidableEq

/-- The hash of the block's last entry. -/
def DataBlock.endHash (block : DataBlock) : Option Hash :=
  block.entries.getLast?.map Entry.hash

structure BlockhashEntry where
  blockhash : Hash
  slot : Nat
  derivedAt : Nat

namespace BlockhashDeriver

/-- The entry of a new deriver, made at the given time. -/
def new (now : Nat) : BlockhashEntry := ⟨Hash.default, 0, now⟩

/-- The slot is compared once under the read lock and again under the write lock. -/
def onEntriesDecoded (current : BlockhashEntry) (now slot : Nat) (entries : List Entry) :
    BlockhashEntry :=
  match entries.getLast? with
  | none => current
  | some last =>
      if slot > current.slot ∨ (slot = current.slot ∧ last.hash ≠ current.blockhash) then
        if slot > current.slot then ⟨last.hash, slot, now⟩
        else if slot = current.slot then
          { current with blockhash := last.hash, derivedAt := now }
        else current
      else current

def getBlockhash (current : BlockhashEntry) (currentSlot maxAgeSlots : Nat) :
    Option (Hash × Nat) :=
  if current.blockhash = Hash.default then none
  else if currentSlot - current.slot > maxAgeSlots then none
  else some (current.blockhash, current.slot)

def getLatest (current : BlockhashEntry) : Option (Hash × Nat) :=
  if current.blockhash = Hash.default then none
  else some (current.blockhash, current.slot)

def latestSlot (current : BlockhashEntry) : Nat := current.slot

/-- A call: the time it is made at and the block it is about. -/
abbrev Call := Nat × DataBlock

def receive (current : BlockhashEntry) (call : Call) : BlockhashEntry :=
  onEntriesDecoded current call.1 call.2.slot call.2.entries

def decodeAll (current : BlockhashEntry) (calls : List Call) : BlockhashEntry :=
  Runs.run receive current calls

/-- The blocks that have an entry, in the order of the calls. -/
def decoded (calls : List Call) : List DataBlock :=
  (calls.map Prod.snd).filter (fun block => block.entries ≠ [])

/-- Those of the greatest slot. -/
def newestSlot (calls : List Call) : List DataBlock :=
  Arrival.greatest DataBlock.slot (decoded calls)

/-- A block no other of the greatest slot starts after. -/
def IsNewest (calls : List Call) (block : DataBlock) : Prop :=
  block ∈ newestSlot calls ∧ ∀ other ∈ newestSlot calls, other.startIndex ≤ block.startIndex

theorem receive_empty (current : BlockhashEntry) (call : Call) (empty : call.2.entries = []) :
    receive current call = current := by
  simp [receive, onEntriesDecoded, empty]

/-- What a block with entries does: the hash and the slot are those of the block
unless a later slot is held. -/
theorem receive_spec (current : BlockhashEntry) (call : Call) (hash : Hash)
    (ends : call.2.endHash = some hash) :
    (receive current call).slot = max current.slot call.2.slot ∧
      (receive current call).blockhash =
        if current.slot ≤ call.2.slot then hash else current.blockhash := by
  cases found : call.2.entries.getLast? with
  | none => simp [DataBlock.endHash, found] at ends
  | some last =>
      have same : last.hash = hash := by simpa [DataBlock.endHash, found] using ends
      subst same
      simp only [receive, onEntriesDecoded, found]
      rcases lt_trichotomy call.2.slot current.slot with older | equal | newer
      · have apart : ¬ (call.2.slot > current.slot ∨
            (call.2.slot = current.slot ∧ last.hash ≠ current.blockhash)) := by omega
        rw [if_neg apart, if_neg (by omega)]
        exact ⟨by omega, rfl⟩
      · rw [if_pos equal.ge]
        by_cases kept : last.hash = current.blockhash
        · have apart : ¬ (call.2.slot > current.slot ∨
              (call.2.slot = current.slot ∧ last.hash ≠ current.blockhash)) := by
            rintro (later | ⟨-, differs⟩)
            · omega
            · exact differs kept
          rw [if_neg apart]
          exact ⟨by omega, kept.symm⟩
        · rw [if_pos (Or.inr ⟨equal, kept⟩), if_neg (by omega), if_pos equal]
          exact ⟨by simp [equal], rfl⟩
      · rw [if_pos (Or.inl newer), if_pos newer, if_pos newer.le]
        exact ⟨by simp [newer.le], rfl⟩

theorem endHash_isSome (block : DataBlock) (nonempty : block.entries ≠ []) :
    ∃ hash, block.endHash = some hash := by
  refine ⟨(block.entries.getLast nonempty).hash, ?_⟩
  rw [DataBlock.endHash, List.getLast?_eq_getLast_of_ne_nil nonempty]
  rfl

theorem latestSlot_receive (current : BlockhashEntry) (call : Call) :
    latestSlot current ≤ latestSlot (receive current call) := by
  by_cases empty : call.2.entries = []
  · rw [receive_empty current call empty]
  · obtain ⟨hash, ends⟩ := endHash_isSome call.2 empty
    rw [latestSlot, latestSlot, (receive_spec current call hash ends).1]
    exact le_max_left _ _

theorem latestSlot_decodeAll (current : BlockhashEntry) (calls : List Call) :
    latestSlot current ≤ latestSlot (decodeAll current calls) := by
  induction calls generalizing current with
  | nil => exact le_rfl
  | cons call rest ih => exact (latestSlot_receive current call).trans (ih (receive current call))

theorem decoded_concat (calls : List Call) (call : Call) :
    decoded (calls ++ [call]) =
      decoded calls ++ if call.2.entries = [] then [] else [call.2] := by
  rw [decoded, decoded, List.map_append, List.filter_append]
  by_cases empty : call.2.entries = []
  · simp [empty]
  · simp [empty]

/-- What is held is the hash that the last block of the greatest slot ends in. -/
def HoldsLast (calls : List Call) (current : BlockhashEntry) : Prop :=
  match (newestSlot calls).getLast? with
  | none => decoded calls = [] ∧ current.slot = 0 ∧ current.blockhash = Hash.default
  | some last => last.endHash = some current.blockhash ∧ last.slot = current.slot

theorem holdsLast_empty (calls : List Call) (call : Call) (current : BlockhashEntry)
    (held : HoldsLast calls current) (empty : call.2.entries = []) :
    HoldsLast (calls ++ [call]) (receive current call) := by
  have same : decoded (calls ++ [call]) = decoded calls := by
    rw [decoded_concat, if_pos empty, List.append_nil]
  rw [receive_empty current call empty]
  simpa [HoldsLast, newestSlot, same] using held

theorem holdsLast_decoded (calls : List Call) (call : Call) (current : BlockhashEntry)
    (held : HoldsLast calls current) (nonempty : call.2.entries ≠ []) :
    HoldsLast (calls ++ [call]) (receive current call) := by
  obtain ⟨hash, ends⟩ := endHash_isSome call.2 nonempty
  obtain ⟨slotNow, hashNow⟩ := receive_spec current call hash ends
  have grown : decoded (calls ++ [call]) = decoded calls ++ [call.2] := by
    rw [decoded_concat, if_neg nonempty]
  -- the new block is the last one as soon as it stands behind the others of its slot
  have behind : ∀ others, newestSlot (calls ++ [call]) = others ++ [call.2] →
      current.slot ≤ call.2.slot → HoldsLast (calls ++ [call]) (receive current call) := by
    intro others split reaches
    rw [HoldsLast, split, List.getLast?_concat]
    rw [if_pos reaches] at hashNow
    exact ⟨by rw [hashNow]; exact ends, by rw [slotNow, max_eq_right reaches]⟩
  rw [HoldsLast] at held
  cases found : (newestSlot calls).getLast? with
  | none =>
      rw [found] at held
      obtain ⟨nothing, start, -⟩ := held
      refine behind [] ?_ (by omega)
      rw [newestSlot, grown, nothing]
      exact Arrival.greatest_concat_above _ [] call.2 (by simp)
  | some last =>
      rw [found] at held
      obtain ⟨lastEnds, lastSlot⟩ := held
      have member : last ∈ Arrival.greatest DataBlock.slot (decoded calls) :=
        List.mem_of_getLast? found
      rcases lt_trichotomy call.2.slot current.slot with older | equal | newer
      · have split : newestSlot (calls ++ [call]) = newestSlot calls := by
          rw [newestSlot, grown]
          exact Arrival.greatest_concat_below _ _ last call.2 member (by omega)
        rw [HoldsLast, split, found]
        rw [if_neg (by omega)] at hashNow
        exact ⟨by rw [hashNow]; exact lastEnds, by rw [slotNow, max_eq_left older.le, lastSlot]⟩
      · refine behind (newestSlot calls) ?_ equal.ge
        rw [newestSlot, grown]
        exact Arrival.greatest_concat_level _ _ last call.2 member (by omega)
      · refine behind [] ?_ newer.le
        rw [newestSlot, grown]
        apply Arrival.greatest_concat_above
        intro other inside
        have bound := ((Arrival.mem_greatest _ _ _).mp member).2 other inside
        omega

theorem holdsLast_decodeAll (now : Nat) (calls : List Call) :
    HoldsLast calls (decodeAll (new now) calls) := by
  induction calls using List.reverseRecOn with
  | nil => exact ⟨rfl, rfl, rfl⟩
  | append_singleton before call ih =>
      have last : decodeAll (new now) (before ++ [call]) =
          receive (decodeAll (new now) before) call := Runs.run_append _ _ _ _
      rw [last]
      by_cases empty : call.2.entries = []
      · exact holdsLast_empty before call _ ih empty
      · exact holdsLast_decoded before call _ ih empty

/-- The hash and the slot held are those of the block that starts last in the
greatest slot, once a block with entries came. -/
def ReportsNewest (calls : List Call) (current : BlockhashEntry) : Prop :=
  decoded calls ≠ [] → ∃ newest, IsNewest calls newest ∧
    newest.endHash = some current.blockhash ∧ latestSlot current = newest.slot

/-- Of the blocks of the greatest slot, the one to come last ends in the hash of one
that starts last. -/
def NewestArrivesLast (calls : List Call) : Prop :=
  ∀ last, (newestSlot calls).getLast? = some last →
    ∃ newest, IsNewest calls newest ∧ newest.endHash = last.endHash

theorem newestSlot_ne_nil (calls : List Call) (nonempty : decoded calls ≠ []) :
    newestSlot calls ≠ [] := by
  intro empty
  have held := holdsLast_decodeAll 0 calls
  rw [HoldsLast, empty] at held
  exact nonempty held.1

theorem reportsNewest_iff (now : Nat) (calls : List Call) :
    ReportsNewest calls (decodeAll (new now) calls) ↔ NewestArrivesLast calls := by
  have held := holdsLast_decodeAll now calls
  rw [HoldsLast] at held
  constructor
  · intro reports last found
    have member := List.mem_of_getLast? found
    have inside : last ∈ decoded calls := ((Arrival.mem_greatest _ _ _).mp member).1
    obtain ⟨newest, isNewest, ends, -⟩ := reports (List.ne_nil_of_mem inside)
    rw [found] at held
    exact ⟨newest, isNewest, ends.trans held.1.symm⟩
  · intro arrives nonempty
    cases found : (newestSlot calls).getLast? with
    | none => exact absurd (List.getLast?_eq_none_iff.mp found) (newestSlot_ne_nil calls nonempty)
    | some last =>
        rw [found] at held
        obtain ⟨newest, isNewest, ends⟩ := arrives last found
        refine ⟨newest, isNewest, ends.trans held.1, ?_⟩
        rw [latestSlot, ← held.2]
        exact Arrival.greatest_level _ _ last newest (List.mem_of_getLast? found) isNewest.1

theorem decoded_perm (calls order : List Call) (same : order.Perm calls) :
    (decoded order).Perm (decoded calls) := (same.map Prod.snd).filter _

theorem isNewest_perm (calls order : List Call) (same : order.Perm calls) (block : DataBlock) :
    IsNewest order block ↔ IsNewest calls block := by
  have members : ∀ other, other ∈ newestSlot order ↔ other ∈ newestSlot calls :=
    Arrival.greatest_perm _ _ _ (decoded_perm calls order same)
  rw [IsNewest, IsNewest, members]
  constructor
  · rintro ⟨inside, bound⟩
    exact ⟨inside, fun other later => bound other ((members other).mpr later)⟩
  · rintro ⟨inside, bound⟩
    exact ⟨inside, fun other later => bound other ((members other).mp later)⟩

/-- Any block of the greatest slot can be made the last to come. -/
theorem exists_order_ending (calls : List Call) (block : DataBlock)
    (member : block ∈ newestSlot calls) :
    ∃ order : List Call, order.Perm calls ∧ (newestSlot order).getLast? = some block := by
  obtain ⟨inside, bound⟩ := (Arrival.mem_greatest _ _ _).mp member
  rw [decoded, List.mem_filter, List.mem_map] at inside
  obtain ⟨⟨call, among, rfl⟩, nonempty⟩ := inside
  obtain ⟨before, after, rfl⟩ := List.append_of_mem among
  have same : ((before ++ after) ++ [call]).Perm (before ++ call :: after) := by
    rw [List.append_assoc]
    exact (List.perm_append_singleton call after).append_left before
  refine ⟨(before ++ after) ++ [call], same, ?_⟩
  have grown : decoded ((before ++ after) ++ [call]) =
      decoded (before ++ after) ++ [call.2] := by
    rw [decoded_concat, if_neg (by simpa using nonempty)]
  have reaches : call.2 ∈ newestSlot ((before ++ after) ++ [call]) :=
    (Arrival.greatest_perm _ _ _ (decoded_perm _ _ same) _).mpr member
  rw [newestSlot, grown] at reaches ⊢
  rw [Arrival.greatest, List.filter_append, List.filter_cons_of_pos]
  · exact List.getLast?_concat
  · simpa using ((Arrival.mem_greatest _ _ _).mp reaches).2

/-- One order of calls reports the newest hash exactly if the newest block of the
greatest slot comes last, every order exactly if all blocks of that slot end alike;
the slot never falls. -/
theorem order_independent_iff (now : Nat) (calls : List Call) :
    ((ReportsNewest calls (decodeAll (new now) calls) ∧
        ∀ earlier later, calls = earlier ++ later →
          latestSlot (decodeAll (new now) earlier) ≤ latestSlot (decodeAll (new now) calls)) ↔
      NewestArrivesLast calls) ∧
    ((∀ order : List Call, order.Perm calls →
        ReportsNewest order (decodeAll (new now) order)) ↔
      ∀ block ∈ newestSlot calls, ∃ newest, IsNewest calls newest ∧
        newest.endHash = block.endHash) := by
  refine ⟨⟨fun both => (reportsNewest_iff now calls).mp both.1, fun arrives =>
    ⟨(reportsNewest_iff now calls).mpr arrives, ?_⟩⟩, ?_, ?_⟩
  · intro earlier later split
    have rest : decodeAll (new now) calls = decodeAll (decodeAll (new now) earlier) later := by
      rw [split]
      exact Runs.run_append _ _ _ _
    rw [rest]
    exact latestSlot_decodeAll _ later
  · intro every block member
    obtain ⟨order, same, found⟩ := exists_order_ending calls block member
    obtain ⟨newest, isNewest, ends⟩ :=
      (reportsNewest_iff now order).mp (every order same) block found
    exact ⟨newest, (isNewest_perm calls order same newest).mp isNewest, ends⟩
  · intro alike order same
    rw [reportsNewest_iff]
    intro last found
    obtain ⟨newest, isNewest, ends⟩ := alike last
      ((Arrival.greatest_perm _ _ _ (decoded_perm calls order same) last).mp
        (List.mem_of_getLast? found))
    exact ⟨newest, (isNewest_perm calls order same newest).mpr isNewest, ends⟩

/-- A block that starts at shred 5, then the one before it in the slot. -/
def lateBlock : List Call :=
  [(0, ⟨1, 5, [⟨Hash.replicate 5⟩]⟩), (1, ⟨1, 0, [⟨Hash.replicate 7⟩]⟩)]

theorem late_block_reported : ¬ ReportsNewest lateBlock (decodeAll (new 0) lateBlock) := by
  rw [reportsNewest_iff]
  intro arrives
  obtain ⟨newest, ⟨member, bound⟩, ends⟩ :=
    arrives ⟨1, 0, [⟨Hash.replicate 7⟩]⟩ (by decide)
  have five : 5 ≤ newest.startIndex :=
    bound ⟨1, 5, [⟨Hash.replicate 5⟩]⟩ (by decide)
  have both : newestSlot lateBlock = lateBlock.map Prod.snd := by decide
  rw [both] at member
  simp only [lateBlock, List.map_cons, List.map_nil, List.mem_cons, List.not_mem_nil,
    or_false] at member
  rcases member with rfl | rfl
  · exact absurd ends (by decide)
  · exact absurd five (by decide)

/-- What the executor signs with is never older than it asked for. -/
theorem getBlockhash_fresh (now currentSlot maxAgeSlots : Nat) (calls : List Call)
    (hash : Hash) (slot : Nat)
    (found : getBlockhash (decodeAll (new now) calls) currentSlot maxAgeSlots =
      some (hash, slot)) :
    currentSlot ≤ slot + maxAgeSlots ∧ ∃ last, (newestSlot calls).getLast? = some last ∧
      last.endHash = some hash ∧ last.slot = slot := by
  have held := holdsLast_decodeAll now calls
  rw [getBlockhash] at found
  split at found
  · cases found
  · rename_i known
    split at found
    · cases found
    · rename_i fresh
      cases found
      refine ⟨by omega, ?_⟩
      rw [HoldsLast] at held
      cases last : (newestSlot calls).getLast? with
      | none =>
          rw [last] at held
          exact absurd held.2.2 known
      | some block =>
          rw [last] at held
          exact ⟨block, rfl, held⟩

end BlockhashDeriver

end Helios
