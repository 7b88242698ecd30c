import Helios.BlockEmission
import Helios.RecoveryOutcome

/-! Coding shreds whose header a FEC set rejects. The rejection is counted, and the shred is stored
and counted with the others all the same. -/

namespace Helios.RejectedShreds

open Runs FecAssembler

def keyOf (parsed : ParsedShred) : FecKey := ⟨parsed.shred.slot, parsed.shred.fecSetIndex⟩

def setOf (assembler : FecAssembler) (key : FecKey) : FecSet :=
  (HashMap.get assembler.sets key).getD FecSet.new

/-- The set rejects the coding header of the shred. -/
def rejects (set : FecSet) (parsed : ParsedShred) : Bool :=
  match parsed.codingMeta with
  | none => false
  | some header =>
      match (set.observeCodingMeta parsed.shred.index header).2 with
      | .ok () => false
      | .error _ => true

/-- The set holds as many data shreds as its header announces. -/
def Complete (set : FecSet) : Prop :=
  ∃ header, set.codingMeta = some header ∧ header.numDataShreds ≤ set.dataShreds.entries.length

/-! One arrival, as far as its FEC set goes. -/

section Sets

/-- The set once a shred and its header are in it. -/
def receive (set : FecSet) (parsed : ParsedShred) : FecSet :=
  let observed :=
    match parsed.codingMeta with
    | some header => (set.observeCodingMeta parsed.shred.index header).1
    | none => set
  observed.addShred parsed.shred

theorem receivingSet_eq (assembler : FecAssembler) (parsed : ParsedShred) :
    assembler.receivingSet parsed = receive (setOf assembler (keyOf parsed)) parsed := rfl

theorem receive_of_isData (set : FecSet) (parsed : ParsedShred)
    (data : parsed.shred.isData = true) :
    receive set parsed =
      { set with dataShreds := set.dataShreds.insert parsed.shred.index parsed.shred } := by
  rw [receive, ParsedShred.codingMeta_of_isData parsed data, FecSet.addShred, if_pos data]

/-- A header changes nothing of a set but a header that is still missing. -/
theorem observe_spec (set : FecSet) (index : Nat) (header : CodingMeta) :
    (set.observeCodingMeta index header).1.dataShreds = set.dataShreds ∧
    (set.observeCodingMeta index header).1.codingShreds = set.codingShreds ∧
    (∀ held, set.codingMeta = some held →
      (set.observeCodingMeta index header).1.codingMeta = some held) := by
  rw [FecSet.observeCodingMeta]
  split
  · exact ⟨rfl, rfl, fun held recorded => recorded⟩
  · dsimp only
    split
    · next none =>
        refine ⟨rfl, rfl, ?_⟩
        intro held recorded
        rw [none] at recorded
        cases recorded
    · split
      · exact ⟨rfl, rfl, fun held recorded => recorded⟩
      · exact ⟨rfl, rfl, fun held recorded => recorded⟩

theorem receive_codingMeta (set : FecSet) (parsed : ParsedShred) (held : ObservedCodingMeta)
    (recorded : set.codingMeta = some held) : (receive set parsed).codingMeta = some held := by
  rw [receive, FecSet.addShred]
  have observed : (match parsed.codingMeta with
      | some header => (set.observeCodingMeta parsed.shred.index header).1
      | none => set).codingMeta = some held := by
    split
    · exact (observe_spec set _ _).2.2 held recorded
    · exact recorded
  split
  · exact observed
  · exact observed

theorem receive_dataShreds (set : FecSet) (parsed : ParsedShred) :
    (receive set parsed).dataShreds =
      if parsed.shred.isData then set.dataShreds.insert parsed.shred.index parsed.shred
      else set.dataShreds := by
  have observed : (match parsed.codingMeta with
      | some header => (set.observeCodingMeta parsed.shred.index header).1
      | none => set).dataShreds = set.dataShreds := by
    split
    · exact (observe_spec set _ _).1
    · rfl
  rw [receive, FecSet.addShred]
  split
  · exact congrArg (fun held => held.insert parsed.shred.index parsed.shred) observed
  · exact observed

theorem receive_codingShreds (set : FecSet) (parsed : ParsedShred) :
    (receive set parsed).codingShreds =
      if parsed.shred.isData then set.codingShreds
      else set.codingShreds.insert parsed.shred.index parsed.shred := by
  have observed : (match parsed.codingMeta with
      | some header => (set.observeCodingMeta parsed.shred.index header).1
      | none => set).codingShreds = set.codingShreds := by
    split
    · exact (observe_spec set _ _).2.1
    · rfl
  rw [receive, FecSet.addShred]
  split
  · exact observed
  · exact congrArg (fun held => held.insert parsed.shred.index parsed.shred) observed

/-- A rejected shred is a coding shred, and its header is not taken over. -/
theorem receive_of_rejects (set : FecSet) (parsed : ParsedShred)
    (rejected : rejects set parsed = true) :
    parsed.shred.isData = false ∧ receive set parsed =
      { set with codingShreds := set.codingShreds.insert parsed.shred.index parsed.shred } := by
  rw [rejects] at rejected
  split at rejected
  · cases rejected
  · next header found =>
      have code : parsed.shred.isData = false := by
        by_contra data
        rw [Bool.not_eq_false] at data
        rw [ParsedShred.codingMeta_of_isData parsed data] at found
        cases found
      refine ⟨code, ?_⟩
      have kept : (set.observeCodingMeta parsed.shred.index header).1 = set := by
        rw [FecSet.observeCodingMeta] at rejected ⊢
        split
        · rfl
        · next first placed =>
            rw [placed] at rejected
            dsimp only at rejected ⊢
            cases recorded : set.codingMeta with
            | none =>
                rw [recorded] at rejected
                cases rejected
            | some current =>
                rw [recorded] at rejected
                dsimp only at rejected ⊢
                split
                · next same =>
                    rw [if_pos same] at rejected
                · rfl
      rw [receive, found]
      dsimp only
      rw [kept, FecSet.addShred, if_neg (by rw [code]; exact Bool.false_ne_true)]

theorem canAttempt_iff (set : FecSet) (header : ObservedCodingMeta)
    (recorded : set.codingMeta = some header) :
    set.canAttemptRecovery = true ↔
      set.codingShreds.entries.length ≠ 0 ∧
        set.dataShreds.entries.length < header.numDataShreds ∧
        header.numDataShreds ≤
          set.dataShreds.entries.length + set.codingShreds.entries.length := by
  rw [FecSet.canAttemptRecovery, recorded]
  exact decide_eq_true_iff

theorem canAttempt_of_complete (set : FecSet) (complete : Complete set) :
    set.canAttemptRecovery = false := by
  rcases complete with ⟨header, recorded, enough⟩
  apply Bool.eq_false_iff.mpr
  intro due
  have short := ((canAttempt_iff set header recorded).mp due).2.1
  omega

theorem complete_receive (set : FecSet) (parsed : ParsedShred) (complete : Complete set) :
    Complete (receive set parsed) := by
  rcases complete with ⟨header, recorded, enough⟩
  refine ⟨header, receive_codingMeta set parsed header recorded, ?_⟩
  rw [receive_dataShreds]
  split
  · exact le_trans enough (HashMap.length_le_insert _ _ _)
  · exact enough

variable (recover : FecSet → Except String (List Shred))

/-- The set after the attempt that may follow an arrival. -/
def settle (set : FecSet) : FecSet :=
  if set.canAttemptRecovery then (set.maybeRecover recover).1 else set

/-- The outcome of that attempt, `none` where none is made. -/
def attemptOn (set : FecSet) : Option (Except String (List Shred)) :=
  if set.canAttemptRecovery then some (set.maybeRecover recover).2 else none

theorem recoveredSet_eq (assembler : FecAssembler) (parsed : ParsedShred) :
    (assembler.recoveredSet recover parsed).1 =
      settle recover (receive (setOf assembler (keyOf parsed)) parsed) := by
  rw [recoveredSet, ← receivingSet_eq, settle]
  split
  · split
    · next held added found => rw [found]
    · next held failed found => rw [found]
  · rfl

theorem addRecovered_foldl (recovered : List Shred) (held : FecSet × List Shred) :
    (recovered.foldl FecSet.addRecovered held).1.codingShreds = held.1.codingShreds ∧
    (recovered.foldl FecSet.addRecovered held).1.codingMeta = held.1.codingMeta ∧
    held.1.dataShreds.entries.length ≤
      (recovered.foldl FecSet.addRecovered held).1.dataShreds.entries.length := by
  induction recovered generalizing held with
  | nil => exact ⟨rfl, rfl, le_refl _⟩
  | cons shred rest ih =>
      rw [List.foldl_cons]
      rcases ih (FecSet.addRecovered held shred) with ⟨coding, header, more⟩
      rw [coding, header]
      have step : (FecSet.addRecovered held shred).1.codingShreds = held.1.codingShreds ∧
          (FecSet.addRecovered held shred).1.codingMeta = held.1.codingMeta ∧
          held.1.dataShreds.entries.length ≤
            (FecSet.addRecovered held shred).1.dataShreds.entries.length := by
        rw [FecSet.addRecovered]
        split
        · exact ⟨rfl, rfl, HashMap.length_le_insert _ _ _⟩
        · exact ⟨rfl, rfl, le_refl _⟩
      exact ⟨step.1, step.2.1, le_trans step.2.2 more⟩

theorem settle_spec (set : FecSet) :
    (settle recover set).codingShreds = set.codingShreds ∧
    (settle recover set).codingMeta = set.codingMeta ∧
    set.dataShreds.entries.length ≤ (settle recover set).dataShreds.entries.length := by
  rw [settle]
  split
  · rw [FecSet.maybeRecover]
    split
    · exact ⟨rfl, rfl, le_refl _⟩
    · split
      · exact ⟨rfl, rfl, le_refl _⟩
      · exact addRecovered_foldl _ _
  · exact ⟨rfl, rfl, le_refl _⟩

theorem settle_of_idle (set : FecSet) (idle : set.canAttemptRecovery = false) :
    settle recover set = set ∧ attemptOn recover set = none := by
  rw [settle, attemptOn, idle]
  exact ⟨rfl, rfl⟩

end Sets

/-! What of a set its later recoveries depend on: all of it while data shreds are missing, and not
the coding shreds from then on. -/

section Alike

def Alike (first second : FecSet) : Prop :=
  first = second ∨ (Complete first ∧ first.dataShreds = second.dataShreds ∧
    first.codingMeta = second.codingMeta)

theorem complete_of_alike (first second : FecSet) (complete : Complete first)
    (data : first.dataShreds = second.dataShreds) (header : first.codingMeta = second.codingMeta) :
    Complete second := by
  rw [Complete, ← data, ← header]
  exact complete

variable (recover : FecSet → Except String (List Shred))

theorem alike_receive (first second : FecSet) (parsed : ParsedShred) (alike : Alike first second) :
    Alike (receive first parsed) (receive second parsed) := by
  rcases alike with same | ⟨complete, data, header⟩
  · rw [same]
    exact Or.inl rfl
  · refine Or.inr ⟨complete_receive first parsed complete, ?_, ?_⟩
    · rw [receive_dataShreds, receive_dataShreds, data]
    · rcases complete with ⟨held, recorded, -⟩
      rw [receive_codingMeta first parsed held recorded,
        receive_codingMeta second parsed held (header.symm.trans recorded)]

theorem alike_rejected (first second : FecSet) (parsed : ParsedShred)
    (rejected : rejects first parsed = true) (complete : Complete first)
    (alike : Alike first second) : Alike (receive first parsed) second := by
  have received := (receive_of_rejects first parsed rejected).2
  have done := complete_receive first parsed complete
  rw [received] at done ⊢
  rcases alike with same | ⟨-, data, header⟩
  · rw [← same]
    exact Or.inr ⟨done, rfl, rfl⟩
  · exact Or.inr ⟨done, data, header⟩

theorem alike_settle (first second : FecSet) (alike : Alike first second) :
    Alike (settle recover first) (settle recover second) ∧
      attemptOn recover first = attemptOn recover second := by
  rcases alike with same | ⟨complete, data, header⟩
  · rw [same]
    exact ⟨Or.inl rfl, rfl⟩
  · have other := complete_of_alike first second complete data header
    rcases settle_of_idle recover first (canAttempt_of_complete first complete) with ⟨here, none⟩
    rcases settle_of_idle recover second (canAttempt_of_complete second other) with
      ⟨there, none'⟩
    rw [here, there, none, none']
    exact ⟨Or.inr ⟨complete, data, header⟩, rfl⟩

end Alike

/-! Runs of the assembler, followed at its sets. -/

section Assembler

variable (recover : FecSet → Except String (List Shred))
  (deshred : List Shred → Except String Bytes)

theorem setOf_step (assembler : FecAssembler) (parsed : ParsedShred) (key : FecKey) :
    setOf (step recover deshred assembler parsed) key =
      if key = keyOf parsed then settle recover (receive (setOf assembler key) parsed)
      else setOf assembler key := by
  have sets : (step recover deshred assembler parsed).sets = assembler.sets.insert (keyOf parsed)
      (assembler.recoveredSet recover parsed).1 := by
    rw [step, ingest]
    dsimp only
    split
    · rfl
    · rfl
  rw [setOf, sets]
  by_cases same : key = keyOf parsed
  · rw [if_pos same, same, HashMap.get_insert, Option.getD_some, recoveredSet_eq]
  · rw [if_neg same, HashMap.get_insert_ne _ _ _ _ same]
    rfl

/-- The recovery attempt a call makes. -/
def attempt (assembler : FecAssembler) (parsed : ParsedShred) :
    Option (Except String (List Shred)) :=
  attemptOn recover (assembler.receivingSet parsed)

/-- The attempts of one FEC set along a run, arrival by arrival. -/
def outcomes (key : FecKey) (assembler : FecAssembler) (inputs : List ParsedShred) :
    List (Option (Except String (List Shred))) :=
  ((trace (step recover deshred) assembler inputs).filter
    (fun pair => decide (keyOf pair.2 = key))).map (fun pair => attempt recover pair.1 pair.2)

/-- Every later attempt of its FEC set turns out as if the shred had never arrived. -/
def Inert (assembler : FecAssembler) (parsed : ParsedShred) : Prop :=
  ∀ later, outcomes recover deshred (keyOf parsed) (step recover deshred assembler parsed) later =
    outcomes recover deshred (keyOf parsed) assembler later

/-- The shreds of a run that are not rejected. -/
def accepted : FecAssembler → List ParsedShred → List ParsedShred
  | _, [] => []
  | assembler, parsed :: rest =>
      if rejects (setOf assembler (keyOf parsed)) parsed then
        accepted (step recover deshred assembler parsed) rest
      else parsed :: accepted (step recover deshred assembler parsed) rest

/-- The attempts along a run, those made on the arrival of a rejected shred left out. -/
def acceptedOutcomes (key : FecKey) (assembler : FecAssembler) (inputs : List ParsedShred) :
    List (Option (Except String (List Shred))) :=
  ((trace (step recover deshred) assembler inputs).filter (fun pair =>
    !rejects (setOf pair.1 (keyOf pair.2)) pair.2 && decide (keyOf pair.2 = key))).map
      (fun pair => attempt recover pair.1 pair.2)

theorem outcomes_cons (key : FecKey) (assembler : FecAssembler) (parsed : ParsedShred)
    (rest : List ParsedShred) :
    outcomes recover deshred key assembler (parsed :: rest) =
      (if keyOf parsed = key then [attempt recover assembler parsed] else []) ++
        outcomes recover deshred key (step recover deshred assembler parsed) rest := by
  rw [outcomes, trace, List.filter_cons]
  by_cases same : keyOf parsed = key
  · rw [if_pos same, if_pos (decide_eq_true same)]
    rfl
  · rw [if_neg same, if_neg (by simpa using same)]
    rfl

def AlikeAll (first second : FecAssembler) : Prop := ∀ key, Alike (setOf first key) (setOf second key)

theorem alikeAll_step (first second : FecAssembler) (parsed : ParsedShred)
    (alike : AlikeAll first second) :
    AlikeAll (step recover deshred first parsed) (step recover deshred second parsed) ∧
      attempt recover first parsed = attempt recover second parsed := by
  constructor
  · intro key
    rw [setOf_step, setOf_step]
    split
    · exact (alike_settle recover _ _ (alike_receive _ _ parsed (alike key))).1
    · exact alike key
  · rw [attempt, attempt, receivingSet_eq, receivingSet_eq]
    exact (alike_settle recover _ _ (alike_receive _ _ parsed (alike _))).2

theorem alikeAll_rejected (first second : FecAssembler) (parsed : ParsedShred)
    (rejected : rejects (setOf first (keyOf parsed)) parsed = true)
    (complete : Complete (setOf first (keyOf parsed))) (alike : AlikeAll first second) :
    AlikeAll (step recover deshred first parsed) second := by
  intro key
  rw [setOf_step]
  split
  · next same =>
      subst same
      have idle := canAttempt_of_complete _ (complete_receive _ parsed complete)
      rw [(settle_of_idle recover _ idle).1]
      exact alike_rejected _ _ parsed rejected complete (alike _)
  · exact alike key

/-- A run whose rejected shreds all meet complete sets, against the run without them. -/
theorem acceptedOutcomes_eq (key : FecKey) (first second : FecAssembler)
    (inputs : List ParsedShred) (alike : AlikeAll first second)
    (complete : ∀ pair ∈ trace (step recover deshred) first inputs,
      rejects (setOf pair.1 (keyOf pair.2)) pair.2 = true →
        Complete (setOf pair.1 (keyOf pair.2))) :
    acceptedOutcomes recover deshred key first inputs =
      outcomes recover deshred key second (accepted recover deshred first inputs) := by
  induction inputs generalizing first second with
  | nil => rfl
  | cons parsed rest ih =>
      have here := complete (first, parsed) List.mem_cons_self
      have later := fun pair member => complete pair (List.mem_cons_of_mem _ member)
      rw [acceptedOutcomes, trace, List.filter_cons, accepted]
      by_cases rejected : rejects (setOf first (keyOf parsed)) parsed = true
      · rw [if_pos rejected, rejected, Bool.not_true, Bool.false_and, if_neg Bool.false_ne_true]
        exact ih (step recover deshred first parsed) second
          (alikeAll_rejected recover deshred first second parsed rejected (here rejected) alike) later
      · rw [if_neg rejected, Bool.eq_false_iff.mpr rejected, Bool.not_false, Bool.true_and,
          outcomes_cons]
        have both := alikeAll_step recover deshred first second parsed alike
        have rest := ih _ _ both.1 later
        by_cases same : keyOf parsed = key
        · rw [if_pos same, if_pos (decide_eq_true same), List.map_cons, ← rest]
          exact congrArg (fun made => made :: _) both.2
        · rw [if_neg same, if_neg (by simpa using same), List.nil_append, ← rest]
          rfl

theorem outcomes_alike (key : FecKey) (first second : FecAssembler) (inputs : List ParsedShred)
    (alike : AlikeAll first second) :
    outcomes recover deshred key first inputs = outcomes recover deshred key second inputs := by
  induction inputs generalizing first second with
  | nil => rfl
  | cons parsed rest ih =>
      have both := alikeAll_step recover deshred first second parsed alike
      rw [outcomes_cons, outcomes_cons, both.2, ih _ _ both.1]

theorem inert_of_complete (assembler : FecAssembler) (parsed : ParsedShred)
    (rejected : rejects (setOf assembler (keyOf parsed)) parsed = true)
    (complete : Complete (setOf assembler (keyOf parsed))) :
    Inert recover deshred assembler parsed := by
  intro later
  apply outcomes_alike
  exact alikeAll_rejected recover deshred assembler assembler parsed rejected complete (fun _ => Or.inl rfl)

end Assembler

/-! A set that still waits for data shreds. -/

section Waiting

/-- A set with a header holds a coding shred. -/
def Headed (set : FecSet) : Prop :=
  set.codingMeta ≠ none → ∃ index, index < maxDataShredsPerSlot ∧
    (HashMap.get set.codingShreds index).isSome = true

variable (recover : FecSet → Except String (List Shred))
  (deshred : List Shred → Except String Bytes)

theorem headed_receive (set : FecSet) (parsed : ParsedShred) (headed : Headed set) :
    Headed (receive set parsed) := by
  cases data : parsed.shred.isData with
  | true =>
      rw [receive_of_isData set parsed data]
      exact headed
  | false =>
      intro _
      refine ⟨parsed.shred.index, parsed.shred.indexInSlot, ?_⟩
      rw [receive_codingShreds, data, if_neg Bool.false_ne_true, HashMap.get_insert]
      rfl

theorem headed_settle (set : FecSet) (headed : Headed set) : Headed (settle recover set) := by
  rw [Headed, (settle_spec recover set).1, (settle_spec recover set).2.1]
  exact headed

theorem headed_run (inputs : List ParsedShred) (key : FecKey) :
    Headed (setOf (run (step recover deshred) FecAssembler.new inputs) key) := by
  induction inputs using List.reverseRecOn with
  | nil =>
      intro recorded
      rw [run_nil, setOf, FecAssembler.new, HashMap.get_empty] at recorded
      exact absurd rfl recorded
  | append_singleton inputs parsed ih =>
      rw [run_append, run_cons, run_nil, setOf_step]
      split
      · exact headed_settle recover _ (headed_receive _ parsed ih)
      · exact ih

/-- A data shred with nothing but its place. -/
def bareData (key : FecKey) (index : Nat) (inSlot : index < maxDataShredsPerSlot) : ParsedShred :=
  ⟨[], { payload := [], slot := key.slot, index := index, fecSetIndex := key.fecSetIndex
         isData := true, dataComplete := false, lastInSlot := false, indexInSlot := inSlot
         sized := fun _ read => nomatch read }⟩

/-- A coding shred whose packet ends with the coding header `raw`, if it has one. -/
def bareCode (key : FecKey) (index : Nat) (inSlot : index < maxDataShredsPerSlot) (raw : Bytes) :
    ParsedShred :=
  ⟨raw, { payload := [], slot := key.slot, index := index, fecSetIndex := key.fecSetIndex
          isData := false, dataComplete := false, lastInSlot := false, indexInSlot := inSlot
          sized := fun _ read => nomatch read }⟩

/-- A packet that announces as many data shreds, at position 0. -/
def headerOf (numDataShreds : Nat) : Bytes :=
  List.replicate codingNumDataOffset 0 ++ Machine.leBytes 2 numDataShreds ++ [0, 0, 0, 0]

theorem codingMeta_headerOf (key : FecKey) (index : Nat) (inSlot : index < maxDataShredsPerSlot)
    (numDataShreds : Nat) (word : numDataShreds < 2 ^ 16) :
    (bareCode key index inSlot (headerOf numDataShreds)).codingMeta =
      some ⟨numDataShreds, 0, 0⟩ := by
  have announced : ((headerOf numDataShreds).drop codingNumDataOffset).take 2 =
      Machine.leBytes 2 numDataShreds := rfl
  have coding : ((headerOf numDataShreds).drop codingNumCodingOffset).take 2 = [0, 0] := rfl
  have position : ((headerOf numDataShreds).drop codingPositionOffset).take 2 = [0, 0] := rfl
  have size : codingHeaderEndOffset ≤ (headerOf numDataShreds).length := by
    simp [headerOf, codingHeaderEndOffset, codingNumDataOffset]
  rw [ParsedShred.codingMeta, bareCode]
  dsimp only
  rw [announced, coding, position, decide_eq_true size,
    Machine.ofLeBytes_leBytes 2 numDataShreds (lt_of_lt_of_eq word (by norm_num))]
  rfl

theorem absent_index {V : Type} (map : HashMap Nat V)
    (few : map.entries.length < maxDataShredsPerSlot) :
    ∃ index < maxDataShredsPerSlot, HashMap.get map index = none := by
  by_contra full
  have every : ∀ index < maxDataShredsPerSlot, index ∈ map.keys := by
    intro index inSlot
    by_contra missing
    exact full ⟨index, inSlot, AList.lookup_eq_none.mpr missing⟩
  have subset : List.range maxDataShredsPerSlot ⊆ map.keys :=
    fun index member => every index (List.mem_range.mp member)
  have sizes := (List.nodup_range.subperm subset).length_le
  rw [List.length_range, AList.keys, List.keys, List.length_map] at sizes
  omega

theorem attemptOn_of_due (set : FecSet) (due : set.canAttemptRecovery = true) :
    attemptOn recover set ≠ none := by
  rw [attemptOn, if_pos due]
  exact Option.some_ne_none _

theorem outcomes_singleton (key : FecKey) (assembler : FecAssembler) (parsed : ParsedShred)
    (ofKey : keyOf parsed = key) :
    outcomes recover deshred key assembler [parsed] =
      [attemptOn recover (receive (setOf assembler key) parsed)] := by
  subst ofKey
  rw [outcomes_cons, if_pos rfl]
  rfl

theorem setOf_step_idle (key : FecKey) (assembler : FecAssembler) (parsed : ParsedShred)
    (ofKey : keyOf parsed = key)
    (idle : (receive (setOf assembler key) parsed).canAttemptRecovery = false) :
    setOf (step recover deshred assembler parsed) key = receive (setOf assembler key) parsed := by
  rw [setOf_step, if_pos ofKey.symm, (settle_of_idle recover _ idle).1]

theorem receive_bareData (set : FecSet) (key : FecKey) (index : Nat)
    (inSlot : index < maxDataShredsPerSlot) (absent : HashMap.get set.dataShreds index = none) :
    (receive set (bareData key index inSlot)).codingMeta = set.codingMeta ∧
    (receive set (bareData key index inSlot)).codingShreds = set.codingShreds ∧
    (receive set (bareData key index inSlot)).dataShreds.entries.length =
      set.dataShreds.entries.length + 1 := by
  rw [receive_of_isData set _ rfl]
  exact ⟨rfl, rfl, HashMap.length_insert_of_none _ _ _ absent⟩

/-- One of two sets holds a coding shred more. -/
structure Ahead (header : ObservedCodingMeta) (first second : FecSet) : Prop where
  firstHeader : first.codingMeta = some header
  secondHeader : second.codingMeta = some header
  data : first.dataShreds = second.dataShreds
  coding : first.codingShreds.entries.length = second.codingShreds.entries.length + 1
  someCoding : second.codingShreds.entries.length ≠ 0

theorem ahead_receive (header : ObservedCodingMeta) (first second : FecSet) (key : FecKey)
    (index : Nat) (inSlot : index < maxDataShredsPerSlot) (ahead : Ahead header first second) :
    Ahead header (receive first (bareData key index inSlot))
      (receive second (bareData key index inSlot)) := by
  rw [receive_of_isData first _ rfl, receive_of_isData second _ rfl]
  exact ⟨ahead.firstHeader, ahead.secondHeader,
    congrArg (AList.insert (bareData key index inSlot).shred.index _) ahead.data, ahead.coding,
    ahead.someCoding⟩

/-- The next new data shred brings the attempt of the set that is ahead one shred earlier. -/
theorem due_ahead (header : ObservedCodingMeta) (first second : FecSet) (key : FecKey)
    (index : Nat) (inSlot : index < maxDataShredsPerSlot) (ahead : Ahead header first second)
    (absent : HashMap.get first.dataShreds index = none)
    (short : first.dataShreds.entries.length + 1 < header.numDataShreds) :
    ((receive first (bareData key index inSlot)).canAttemptRecovery = true ↔
      header.numDataShreds ≤
        first.dataShreds.entries.length + first.codingShreds.entries.length + 1) ∧
    ((receive second (bareData key index inSlot)).canAttemptRecovery = true ↔
      header.numDataShreds ≤
        first.dataShreds.entries.length + first.codingShreds.entries.length) := by
  have grown := receive_bareData first key index inSlot absent
  have next := ahead_receive header first second key index inSlot ahead
  have coding := next.coding
  have someCoding := next.someCoding
  rw [grown.2.1] at coding
  rw [canAttempt_iff _ header next.firstHeader, canAttempt_iff _ header next.secondHeader,
    ← next.data, grown.2.1, grown.2.2]
  omega

/-- Data shreds arrive until the set that is ahead is the only one to have enough. -/
theorem differs_of_ahead (header : ObservedCodingMeta) (key : FecKey) (missing : Nat)
    (first second : FecAssembler) (ahead : Ahead header (setOf first key) (setOf second key))
    (gap : (setOf first key).dataShreds.entries.length +
      (setOf first key).codingShreds.entries.length + missing + 1 = header.numDataShreds)
    (few : header.numDataShreds ≤ maxDataShredsPerSlot) :
    ∃ later, outcomes recover deshred key first later ≠
      outcomes recover deshred key second later := by
  induction missing generalizing first second with
  | zero =>
      have coding := ahead.coding
      have someCoding := ahead.someCoding
      rcases absent_index (setOf first key).dataShreds (by omega) with ⟨index, inSlot, absent⟩
      have due := due_ahead header _ _ key index inSlot ahead absent (by omega)
      have idle : (receive (setOf second key) (bareData key index inSlot)).canAttemptRecovery =
          false := by
        apply Bool.eq_false_iff.mpr
        rw [Ne, due.2]
        omega
      refine ⟨[bareData key index inSlot], ?_⟩
      rw [outcomes_singleton recover deshred key first _ rfl,
        outcomes_singleton recover deshred key second _ rfl]
      intro same
      have same := List.head_eq_of_cons_eq same
      rw [(settle_of_idle recover _ idle).2] at same
      exact attemptOn_of_due recover _ (due.1.mpr (by omega)) same
  | succ missing ih =>
      have coding := ahead.coding
      rcases absent_index (setOf first key).dataShreds (by omega) with ⟨index, inSlot, absent⟩
      have grown := receive_bareData (setOf first key) key index inSlot absent
      have next := ahead_receive header _ _ key index inSlot ahead
      have due := due_ahead header _ _ key index inSlot ahead absent (by omega)
      have firstIdle : (receive (setOf first key)
          (bareData key index inSlot)).canAttemptRecovery = false := by
        apply Bool.eq_false_iff.mpr
        rw [Ne, due.1]
        omega
      have secondIdle : (receive (setOf second key)
          (bareData key index inSlot)).canAttemptRecovery = false := by
        apply Bool.eq_false_iff.mpr
        rw [Ne, due.2]
        omega
      have firstSet : setOf (step recover deshred first (bareData key index inSlot)) key =
          receive (setOf first key) (bareData key index inSlot) :=
        setOf_step_idle recover deshred key first _ rfl firstIdle
      have secondSet : setOf (step recover deshred second (bareData key index inSlot)) key =
          receive (setOf second key) (bareData key index inSlot) :=
        setOf_step_idle recover deshred key second _ rfl secondIdle
      have later : ∃ later, outcomes recover deshred key
          (step recover deshred first (bareData key index inSlot)) later ≠
          outcomes recover deshred key
            (step recover deshred second (bareData key index inSlot)) later := by
        apply ih
        · rw [firstSet, secondSet]
          exact next
        · rw [firstSet, grown.2.1, grown.2.2]
          omega
      rcases later with ⟨later, apart⟩
      have ofKey : keyOf (bareData key index inSlot) = key := rfl
      refine ⟨bareData key index inSlot :: later, ?_⟩
      rw [outcomes_cons, outcomes_cons, if_pos ofKey, if_pos ofKey]
      intro same
      exact apart (List.cons.inj same).2

theorem receive_bareCode (set : FecSet) (key : FecKey) (index : Nat)
    (inSlot : index < maxDataShredsPerSlot)
    (held : (HashMap.get set.codingShreds index).isSome = true) :
    (receive set (bareCode key index inSlot [])).codingMeta = set.codingMeta ∧
    (receive set (bareCode key index inSlot [])).dataShreds = set.dataShreds ∧
    (receive set (bareCode key index inSlot [])).codingShreds.entries.length =
      set.codingShreds.entries.length :=
  ⟨rfl, rfl, HashMap.length_insert_of_some _ _ _ held⟩

/-- The shred that filled the set up has had its attempt. If the set is complete since, the other
set makes an attempt on the next data shred; if not, this one makes one on any arrival. -/
theorem differs_of_filled (header : ObservedCodingMeta) (key : FecKey)
    (first second : FecAssembler)
    (firstHeader : (setOf first key).codingMeta = some header)
    (secondHeader : (setOf second key).codingMeta = some header)
    (data : (setOf second key).dataShreds.entries.length ≤
      (setOf first key).dataShreds.entries.length)
    (coding : (setOf first key).codingShreds.entries.length =
      (setOf second key).codingShreds.entries.length + 1)
    (short : (setOf second key).dataShreds.entries.length +
      (setOf second key).codingShreds.entries.length + 1 = header.numDataShreds)
    (few : header.numDataShreds ≤ maxDataShredsPerSlot)
    (index : Nat) (inSlot : index < maxDataShredsPerSlot)
    (firstHeld : (HashMap.get (setOf first key).codingShreds index).isSome = true)
    (secondHeld : (HashMap.get (setOf second key).codingShreds index).isSome = true) :
    ∃ later, outcomes recover deshred key first later ≠
      outcomes recover deshred key second later := by
  have some := HashMap.length_ne_zero_of_get _ index secondHeld
  by_cases complete : Complete (setOf first key)
  · rcases absent_index (setOf second key).dataShreds (by omega) with ⟨place, inside, absent⟩
    have grown := receive_bareData (setOf second key) key place inside absent
    have idle := canAttempt_of_complete _
      (complete_receive _ (bareData key place inside) complete)
    have due : (receive (setOf second key) (bareData key place inside)).canAttemptRecovery =
        true := by
      rw [canAttempt_iff _ header (grown.1.trans secondHeader), grown.2.1, grown.2.2]
      omega
    refine ⟨[bareData key place inside], ?_⟩
    rw [outcomes_singleton recover deshred key first _ rfl,
      outcomes_singleton recover deshred key second _ rfl, (settle_of_idle recover _ idle).2]
    intro same
    exact attemptOn_of_due recover _ due (List.head_eq_of_cons_eq same).symm
  · have lacking : (setOf first key).dataShreds.entries.length < header.numDataShreds :=
      not_le.mp (fun enough => complete ⟨header, firstHeader, enough⟩)
    have firstSame := receive_bareCode (setOf first key) key index inSlot firstHeld
    have secondSame := receive_bareCode (setOf second key) key index inSlot secondHeld
    have due : (receive (setOf first key) (bareCode key index inSlot [])).canAttemptRecovery =
        true := by
      rw [canAttempt_iff _ header (firstSame.1.trans firstHeader), firstSame.2.1, firstSame.2.2]
      omega
    have idle : (receive (setOf second key) (bareCode key index inSlot [])).canAttemptRecovery =
        false := by
      apply Bool.eq_false_iff.mpr
      rw [Ne, canAttempt_iff _ header (secondSame.1.trans secondHeader), secondSame.2.1,
        secondSame.2.2]
      omega
    refine ⟨[bareCode key index inSlot []], ?_⟩
    rw [outcomes_singleton recover deshred key first _ rfl,
      outcomes_singleton recover deshred key second _ rfl, (settle_of_idle recover _ idle).2]
    intro same
    exact attemptOn_of_due recover _ due (List.head_eq_of_cons_eq same)

theorem not_inert_of_waiting (header : ObservedCodingMeta) (assembler : FecAssembler)
    (parsed : ParsedShred) (rejected : rejects (setOf assembler (keyOf parsed)) parsed = true)
    (headed : Headed (setOf assembler (keyOf parsed)))
    (recorded : (setOf assembler (keyOf parsed)).codingMeta = some header)
    (new : HashMap.get (setOf assembler (keyOf parsed)).codingShreds parsed.shred.index = none)
    (short : (setOf assembler (keyOf parsed)).dataShreds.entries.length +
      (setOf assembler (keyOf parsed)).codingShreds.entries.length < header.numDataShreds)
    (few : header.numDataShreds ≤ maxDataShredsPerSlot) :
    ¬ Inert recover deshred assembler parsed := by
  intro inert
  have received := (receive_of_rejects _ parsed rejected).2
  rcases headed (by rw [recorded]; exact Option.some_ne_none header) with ⟨index, inSlot, held⟩
  have some := HashMap.length_ne_zero_of_get _ index held
  have grown := HashMap.length_insert_of_none _ _ parsed.shred new
  have stepped := setOf_step recover deshred assembler parsed (keyOf parsed)
  rw [if_pos rfl, received] at stepped
  have settled := settle_spec recover { setOf assembler (keyOf parsed) with
    codingShreds := (setOf assembler (keyOf parsed)).codingShreds.insert parsed.shred.index
      parsed.shred }
  rw [← stepped] at settled
  rcases settled with ⟨coding, headers, data⟩
  have differs : ∃ later, outcomes recover deshred (keyOf parsed)
      (step recover deshred assembler parsed) later ≠
      outcomes recover deshred (keyOf parsed) assembler later := by
    by_cases filled : (setOf assembler (keyOf parsed)).dataShreds.entries.length +
        (setOf assembler (keyOf parsed)).codingShreds.entries.length + 1 = header.numDataShreds
    · apply differs_of_filled recover deshred header (keyOf parsed) _ assembler
        (headers.trans recorded) recorded data _ filled few index inSlot _ held
      · rw [coding]
        exact grown
      · rw [coding]
        by_cases same : index = parsed.shred.index
        · rw [same, HashMap.get_insert]
          rfl
        · rw [HashMap.get_insert_ne _ _ _ _ same]
          exact held
    · have idle : (receive (setOf assembler (keyOf parsed)) parsed).canAttemptRecovery =
          false := by
        apply Bool.eq_false_iff.mpr
        rw [Ne, canAttempt_iff _ header (receive_codingMeta _ parsed header recorded), received]
        dsimp only
        omega
      have waits := setOf_step_idle recover deshred (keyOf parsed) assembler parsed rfl idle
      rw [received] at waits
      apply differs_of_ahead recover deshred header (keyOf parsed)
        (header.numDataShreds - ((setOf assembler (keyOf parsed)).dataShreds.entries.length +
          (setOf assembler (keyOf parsed)).codingShreds.entries.length + 2)) _ assembler
      · rw [waits]
        exact ⟨recorded, recorded, rfl, grown, some⟩
      · rw [waits]
        dsimp only
        omega
      · exact few
  rcases differs with ⟨later, apart⟩
  exact apart (inert later)

theorem receive_headerOf (set : FecSet) (key : FecKey) (index : Nat)
    (inSlot : index < maxDataShredsPerSlot) (numDataShreds : Nat) (word : numDataShreds < 2 ^ 16)
    (unknown : set.codingMeta = none)
    (absent : HashMap.get set.codingShreds index = none) :
    (receive set (bareCode key index inSlot (headerOf numDataShreds))).codingMeta =
      some ⟨numDataShreds, 0, index⟩ ∧
    (receive set (bareCode key index inSlot (headerOf numDataShreds))).dataShreds =
      set.dataShreds ∧
    (receive set
        (bareCode key index inSlot (headerOf numDataShreds))).codingShreds.entries.length =
      set.codingShreds.entries.length + 1 := by
  have observed : set.observeCodingMeta index ⟨numDataShreds, 0, 0⟩ =
      ({ set with codingMeta := some ⟨numDataShreds, 0, index⟩ }, .ok ()) := by
    rw [FecSet.observeCodingMeta, unknown]
    rfl
  refine ⟨?_, ?_, ?_⟩
  · rw [receive, codingMeta_headerOf key index inSlot numDataShreds word]
    exact congrArg (fun seen => seen.1.codingMeta) observed
  · rw [receive_dataShreds]
    rfl
  · rw [receive_codingShreds]
    exact HashMap.length_insert_of_none _ index _ absent

/-- A first header that asks for what one of two sets has with it, and the other has not. -/
theorem differs_of_header (key : FecKey) (first second : FecAssembler) (numDataShreds : Nat)
    (word : numDataShreds < 2 ^ 16) (index : Nat) (inSlot : index < maxDataShredsPerSlot)
    (firstUnknown : (setOf first key).codingMeta = none)
    (secondUnknown : (setOf second key).codingMeta = none)
    (firstAbsent : HashMap.get (setOf first key).codingShreds index = none)
    (secondAbsent : HashMap.get (setOf second key).codingShreds index = none)
    (lacking : (setOf first key).dataShreds.entries.length < numDataShreds)
    (enough : numDataShreds ≤ (setOf first key).dataShreds.entries.length +
      ((setOf first key).codingShreds.entries.length + 1))
    (short : (setOf second key).dataShreds.entries.length +
      ((setOf second key).codingShreds.entries.length + 1) < numDataShreds) :
    outcomes recover deshred key first [bareCode key index inSlot (headerOf numDataShreds)] ≠
      outcomes recover deshred key second [bareCode key index inSlot (headerOf numDataShreds)] := by
  have here := receive_headerOf (setOf first key) key index inSlot numDataShreds word firstUnknown
    firstAbsent
  have there := receive_headerOf (setOf second key) key index inSlot numDataShreds word
    secondUnknown secondAbsent
  have due : (receive (setOf first key)
      (bareCode key index inSlot (headerOf numDataShreds))).canAttemptRecovery = true := by
    rw [canAttempt_iff _ _ here.1, here.2.1, here.2.2]
    exact ⟨Nat.succ_ne_zero _, lacking, enough⟩
  have idle : (receive (setOf second key)
      (bareCode key index inSlot (headerOf numDataShreds))).canAttemptRecovery = false := by
    apply Bool.eq_false_iff.mpr
    rw [Ne, canAttempt_iff _ _ there.1, there.2.1, there.2.2]
    exact fun early => absurd early.2.2 (not_le.mpr short)
  rw [outcomes_singleton recover deshred key first _ rfl,
    outcomes_singleton recover deshred key second _ rfl, (settle_of_idle recover _ idle).2]
  intro same
  exact attemptOn_of_due recover _ due (List.head_eq_of_cons_eq same)

theorem not_inert_of_unheaded (assembler : FecAssembler) (parsed : ParsedShred)
    (rejected : rejects (setOf assembler (keyOf parsed)) parsed = true)
    (unknown : (setOf assembler (keyOf parsed)).codingMeta = none)
    (new : HashMap.get (setOf assembler (keyOf parsed)).codingShreds parsed.shred.index = none)
    (few : (setOf assembler (keyOf parsed)).dataShreds.entries.length +
      (setOf assembler (keyOf parsed)).codingShreds.entries.length + 2 ≤ maxDataShredsPerSlot) :
    ¬ Inert recover deshred assembler parsed := by
  intro inert
  have received := (receive_of_rejects _ parsed rejected).2
  have grown := HashMap.length_insert_of_none _ _ parsed.shred new
  have idle : (receive (setOf assembler (keyOf parsed)) parsed).canAttemptRecovery = false := by
    rw [received, FecSet.canAttemptRecovery, unknown]
  have waits := setOf_step_idle recover deshred (keyOf parsed) assembler parsed rfl idle
  rw [received] at waits
  rcases absent_index ((setOf assembler (keyOf parsed)).codingShreds.insert parsed.shred.index
    parsed.shred) (by rw [grown]; omega) with ⟨index, inSlot, absent⟩
  apply differs_of_header recover deshred (keyOf parsed) (step recover deshred assembler parsed)
    assembler ((setOf assembler (keyOf parsed)).dataShreds.entries.length +
      (setOf assembler (keyOf parsed)).codingShreds.entries.length + 2)
    (lt_of_le_of_lt few (by decide)) index inSlot
  · rw [waits]
    exact unknown
  · exact unknown
  · rw [waits]
    exact absent
  · exact (AList.lookup_insert_eq_none.mp absent).2
  · rw [waits]
    dsimp only
    omega
  · rw [waits]
    dsimp only
    omega
  · omega
  · exact inert _

end Waiting

section Claim

variable (recover : FecSet → Except String (List Shred))
  (deshred : List Shred → Except String Bytes)

/-- How many data shreds a set waits for: those its header announces or, without a header, those
that the next one may. -/
def announced (set : FecSet) : Nat :=
  match set.codingMeta with
  | some header => header.numDataShreds
  | none => set.dataShreds.entries.length + set.codingShreds.entries.length + 2

end Claim

/-! A batch of two data and two coding shreds, and a shred of it with a broken position. -/

section Malformed

open HonestFecSet

def sampleParsed (place : Fin 4) : ParsedShred := ⟨samplePayload place, sampleShred place⟩

/-- The second coding shred, at position 9 by its header. -/
def malformedPayload : Bytes := overwrite (samplePayload 3) codingPositionOffset [9, 0]

theorem malformedPayload_variant :
    RecoveryVariant.fromPayload malformedPayload = some (.merkleCode 2 false false) := by
  decide +kernel

def malformed : ParsedShred :=
  ⟨malformedPayload,
    { payload := malformedPayload, slot := 0, index := 1, fecSetIndex := 0, isData := false
      dataComplete := false, lastInSlot := false
      indexInSlot := one_lt_maxDataShredsPerSlot
      sized := by
        intro variant read
        rw [malformedPayload_variant] at read
        cases read
        decide +kernel }⟩

/-- The first coding shred is in. -/
def awaiting : FecAssembler :=
  run (step (FecSet.recoverShreds sampleLedger) sampleLedger.deshred) FecAssembler.new
    [sampleParsed 2]

def succeeded (made : Option (Except String (List Shred))) : Bool :=
  match made with
  | some (.ok _) => true
  | _ => false

end Malformed

end Helios.RejectedShreds
