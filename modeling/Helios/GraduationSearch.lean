import Helios.SignalProcessor

/-! The search for a graduation over all the instructions of a transaction. An account that
cannot be resolved ends the search, also for the instructions behind. -/

namespace Helios.GraduationSearch

open Decoded SwapDecoder

theorem refused_bind {α β : Type} (next : α → Decoded β) :
    ((refused : Decoded α) >>= next) = refused := rfl

inductive Launchpad where
  | pumpSwap
  | pumpFun
  | launchLab
  | moonshot

namespace Launchpad

def program : Launchpad → Pubkey
  | pumpSwap => DexPrograms.pumpswap
  | pumpFun => pumpFunProgram
  | launchLab => raydiumLaunchlab
  | moonshot => SwapDecoder.moonshot

def tags : Launchpad → List (List UInt8)
  | pumpSwap => [pumpSwapCreatePoolDisc]
  | pumpFun => [pumpFunMigrateDisc]
  | launchLab => [launchLabMigrateAmmDisc, launchLabMigrateCpswapDisc]
  | moonshot => [moonshotMigrateCamelDisc, moonshotMigrateSnakeDisc, moonitMigrateMeteoraDisc,
      moonitMigrationDammV2Disc]

/-- The accounts of the layout that have to be among the static ones. -/
def places : Launchpad → List Nat
  | pumpSwap => [0, 3, 4]
  | pumpFun => [0, 2]
  | launchLab => [2, 1]
  | moonshot => [1, 2]

/-- The accounts of the layout that have to be listed, wherever they are. -/
def listed : Launchpad → List Nat
  | pumpSwap => [2]
  | _ => []

def extract : Launchpad → List Pubkey → List UInt8 → Decoded (Option GraduationEvent)
  | pumpSwap => poolCreated
  | pumpFun => migrated 0 2
  | launchLab => migrated 2 1
  | moonshot => moonshotMigrated

end Launchpad

section

variable (accounts : List Pubkey)

/-! What an instruction is by itself, read off its data and its accounts. -/

def Tagged (ix : CompiledInstruction) (pad : Launchpad) : Prop :=
  accounts[ix.programIdIndex.toNat]? = some pad.program ∧ 8 ≤ ix.data.length ∧
    ix.data.take 8 ∈ pad.tags

def Complete (accs : List UInt8) (pad : Launchpad) : Prop :=
  (∀ place ∈ pad.places, accountAt place accs accounts ≠ none) ∧
    ∀ place ∈ pad.listed, accs[place]? ≠ none

/-- A pool of WSOL with itself. -/
def BothWsol (accs : List UInt8) : Launchpad → Prop
  | .pumpSwap => accountAt 3 accs accounts = some wsol ∧ accountAt 4 accs accounts = some wsol
  | _ => False

/-- A graduation event with the accounts its layout needs. -/
def Graduates (ix : CompiledInstruction) : Prop :=
  ∃ pad, Tagged accounts ix pad ∧ Complete accounts ix.accounts pad ∧
    ¬BothWsol accounts ix.accounts pad

/-- Of the kind of an event, with too few accounts or one that is not static. -/
def Malformed (ix : CompiledInstruction) : Prop :=
  ∃ pad, Tagged accounts ix pad ∧ ¬Complete accounts ix.accounts pad

/-! The extraction of each layout. -/

theorem poolCreated_spec (accs : List UInt8) :
    (¬Complete accounts accs .pumpSwap → poolCreated accounts accs = refused) ∧
      (Complete accounts accs .pumpSwap → BothWsol accounts accs .pumpSwap →
        poolCreated accounts accs = value none) ∧
      (Complete accounts accs .pumpSwap → ¬BothWsol accounts accs .pumpSwap →
        ∃ event, poolCreated accounts accs = value (some event)) := by
  simp only [Complete, Launchpad.places, Launchpad.listed, BothWsol, poolCreated, List.mem_cons,
    List.not_mem_nil, or_false, forall_eq_or_imp, forall_eq]
  cases accountAt 0 accs accounts with
  | none => simp [ofOption, refused_bind]
  | some pool =>
      cases accs[2]? with
      | none => simp [ofOption, refused_bind, value_bind]
      | some creator =>
          cases accountAt 3 accs accounts with
          | none => simp [ofOption, refused_bind, value_bind]
          | some mintA =>
              cases accountAt 4 accs accounts with
              | none => simp [ofOption, refused_bind, value_bind]
              | some mintB =>
                  simp only [ofOption, value_bind]
                  by_cases first : mintA = wsol
                  · by_cases second : mintB = wsol
                    · simp [first, second]
                      rfl
                    · simp [first, second]
                      exact ⟨_, rfl⟩
                  · simp [first]
                    exact ⟨_, rfl⟩

theorem migrated_spec (tokenPlace poolPlace : Nat) (accs : List UInt8) :
    (¬(accountAt tokenPlace accs accounts ≠ none ∧ accountAt poolPlace accs accounts ≠ none) →
        migrated tokenPlace poolPlace accounts accs = refused) ∧
      (accountAt tokenPlace accs accounts ≠ none ∧ accountAt poolPlace accs accounts ≠ none →
        ∃ event, migrated tokenPlace poolPlace accounts accs = value (some event)) := by
  rw [migrated]
  cases accountAt tokenPlace accs accounts with
  | none => simp [ofOption, refused_bind]
  | some token =>
      cases accountAt poolPlace accs accounts with
      | none => exact ⟨fun _ => rfl, fun both => absurd rfl both.2⟩
      | some pool =>
          refine ⟨fun missing => absurd (by simp) missing, fun _ => ⟨_, rfl⟩⟩

theorem moonshotMigrated_spec (accs : List UInt8) :
    (¬(accountAt 1 accs accounts ≠ none ∧ accountAt 2 accs accounts ≠ none) →
        moonshotMigrated accounts accs = refused) ∧
      (accountAt 1 accs accounts ≠ none ∧ accountAt 2 accs accounts ≠ none →
        ∃ event, moonshotMigrated accounts accs = value (some event)) := by
  rw [moonshotMigrated]
  cases accountAt 1 accs accounts with
  | none => simp [ofOption, refused_bind]
  | some token =>
      cases accountAt 2 accs accounts with
      | none => simp [ofOption, refused_bind, value_bind]
      | some curve =>
          simp only [ofOption, value_bind]
          refine ⟨fun missing => absurd (by simp) missing, fun _ => ?_⟩
          split
          · next venue =>
              -- an account from the fourth on was found, so there is a fourth
              rcases List.any_eq_true.mp venue with ⟨index, member, -⟩
              have long : 3 < accs.length := by
                have some_ := List.length_pos_of_mem member
                rw [List.length_drop] at some_
                omega
              rw [List.getElem?_eq_getElem long]
              exact ⟨_, rfl⟩
          · exact ⟨_, rfl⟩

theorem extract_spec (pad : Launchpad) (accs : List UInt8) :
    (¬Complete accounts accs pad → pad.extract accounts accs = refused) ∧
      (Complete accounts accs pad → BothWsol accounts accs pad →
        pad.extract accounts accs = value none) ∧
      (Complete accounts accs pad → ¬BothWsol accounts accs pad →
        ∃ event, pad.extract accounts accs = value (some event)) := by
  have pair : ∀ first second : Nat, (∀ place ∈ [first, second],
      accountAt place accs accounts ≠ none) ↔
        accountAt first accs accounts ≠ none ∧ accountAt second accs accounts ≠ none := by
    intro first second
    simp
  have nothing : ∀ place ∈ ([] : List Nat), accs[place]? ≠ none := by simp
  cases pad with
  | pumpSwap => exact poolCreated_spec accounts accs
  | pumpFun =>
      rcases migrated_spec accounts 0 2 accs with ⟨missing, found⟩
      refine ⟨fun incomplete => missing ?_, fun _ both => both.elim, fun complete _ => found ?_⟩
      · intro resolved
        exact incomplete ⟨(pair 0 2).mpr resolved, nothing⟩
      · exact (pair 0 2).mp complete.1
  | launchLab =>
      rcases migrated_spec accounts 2 1 accs with ⟨missing, found⟩
      refine ⟨fun incomplete => missing ?_, fun _ both => both.elim, fun complete _ => found ?_⟩
      · intro resolved
        exact incomplete ⟨(pair 2 1).mpr resolved, nothing⟩
      · exact (pair 2 1).mp complete.1
  | moonshot =>
      rcases moonshotMigrated_spec accounts accs with ⟨missing, found⟩
      refine ⟨fun incomplete => missing ?_, fun _ both => both.elim, fun complete _ => found ?_⟩
      · intro resolved
        exact incomplete ⟨(pair 1 2).mpr resolved, nothing⟩
      · exact (pair 1 2).mp complete.1

/-! One instruction. -/

/-- The graduation in one instruction, none if its program is not a static account. -/
def graduationAt (ix : CompiledInstruction) : Decoded (Option GraduationEvent) :=
  match accounts[ix.programIdIndex.toNat]? with
  | none => value none
  | some prog => graduationOf accounts prog ix

theorem detectGraduation_cons (ix : CompiledInstruction) (rest : List CompiledInstruction) :
    detectGraduation accounts (ix :: rest) = (do
      match ← graduationAt accounts ix with
      | some event => pure event
      | none => detectGraduation accounts rest) := by
  rw [detectGraduation, graduationAt]
  cases accounts[ix.programIdIndex.toNat]? with
  | none => rfl
  | some prog => rfl

theorem startsWith_value (data : List UInt8) (tags : List (List UInt8)) :
    startsWith data 8 tags = value (decide (8 ≤ data.length ∧ data.take 8 ∈ tags)) := by
  rw [startsWith]
  by_cases long : 8 ≤ data.length
  · rw [if_neg (not_lt.mpr long), Account.slice_of_inside data 0 8 (by omega), value_bind,
      List.drop_zero]
    simp only [long, true_and]
    rfl
  · rw [if_pos (not_le.mp long)]
    simp only [long, false_and, decide_false]
    rfl

theorem graduationOf_program (pad : Launchpad) (ix : CompiledInstruction) :
    graduationOf accounts pad.program ix = (do
      let found ← startsWith ix.data 8 pad.tags
      if found then pad.extract accounts ix.accounts else return none) := by
  rcases launchpads_ne_dexProgramFor .pumpSwap with ⟨funSwap, labSwap, moonSwap⟩
  rcases launchpads_ne with ⟨labFun, moonFun, moonLab⟩
  rw [graduationOf]
  cases pad with
  | pumpSwap => exact if_pos rfl
  | pumpFun => exact (if_neg funSwap).trans (if_pos rfl)
  | launchLab => exact (if_neg labSwap).trans ((if_neg labFun).trans (if_pos rfl))
  | moonshot =>
      exact (if_neg moonSwap).trans ((if_neg moonFun).trans ((if_neg moonLab).trans (if_pos rfl)))

theorem graduationAt_tagged (ix : CompiledInstruction) (pad : Launchpad)
    (tagged : Tagged accounts ix pad) :
    graduationAt accounts ix = pad.extract accounts ix.accounts := by
  rcases tagged with ⟨named, long, tag⟩
  rw [graduationAt, named]
  dsimp only
  rw [graduationOf_program, startsWith_value, decide_eq_true ⟨long, tag⟩, value_bind]
  rfl

theorem graduationAt_untagged (ix : CompiledInstruction)
    (untagged : ∀ pad, ¬Tagged accounts ix pad) : graduationAt accounts ix = value none := by
  rw [graduationAt]
  cases named : accounts[ix.programIdIndex.toNat]? with
  | none => rfl
  | some prog =>
      dsimp only
      by_cases known : ∃ pad : Launchpad, pad.program = prog
      · rcases known with ⟨pad, same⟩
        subst same
        have other : ¬(8 ≤ ix.data.length ∧ ix.data.take 8 ∈ pad.tags) :=
          fun tag => untagged pad ⟨named, tag⟩
        rw [graduationOf_program, startsWith_value, decide_eq_false other, value_bind]
        rfl
      · have unknown : ∀ pad : Launchpad, prog ≠ pad.program :=
          fun pad same => known ⟨pad, same.symm⟩
        rw [graduationOf]
        exact (if_neg (unknown .pumpSwap)).trans ((if_neg (unknown .pumpFun)).trans
          ((if_neg (unknown .launchLab)).trans (if_neg (unknown .moonshot))))

/-- An instruction has an event, ends the search or is passed over. -/
theorem graduationAt_spec (ix : CompiledInstruction) :
    (Graduates accounts ix → ∃ event, graduationAt accounts ix = value (some event)) ∧
      (Malformed accounts ix → graduationAt accounts ix = refused) ∧
      (¬Graduates accounts ix → ¬Malformed accounts ix → graduationAt accounts ix = value none) := by
  refine ⟨?_, ?_, ?_⟩
  · intro ⟨pad, tagged, complete, real⟩
    rw [graduationAt_tagged accounts ix pad tagged]
    exact (extract_spec accounts pad ix.accounts).2.2 complete real
  · intro ⟨pad, tagged, incomplete⟩
    rw [graduationAt_tagged accounts ix pad tagged]
    exact (extract_spec accounts pad ix.accounts).1 incomplete
  · intro noEvent wellFormed
    by_cases tagged : ∃ pad, Tagged accounts ix pad
    · rcases tagged with ⟨pad, tagged⟩
      have complete : Complete accounts ix.accounts pad := by
        by_contra incomplete
        exact wellFormed ⟨pad, tagged, incomplete⟩
      have both : BothWsol accounts ix.accounts pad := by
        by_contra real
        exact noEvent ⟨pad, tagged, complete, real⟩
      rw [graduationAt_tagged accounts ix pad tagged]
      exact (extract_spec accounts pad ix.accounts).2.1 complete both
    · exact graduationAt_untagged accounts ix (not_exists.mp tagged)

theorem not_malformed_of_graduates (ix : CompiledInstruction) (graduates : Graduates accounts ix) :
    ¬Malformed accounts ix := by
  intro malformed
  rcases (graduationAt_spec accounts ix).1 graduates with ⟨event, found⟩
  rw [(graduationAt_spec accounts ix).2.1 malformed] at found
  cases found

/-! The whole search. -/

/-- The event of an instruction taken alone. -/
def eventOf (ix : CompiledInstruction) : Option GraduationEvent :=
  (detectGraduation accounts [ix]).toOption

theorem eventOf_eq (ix : CompiledInstruction) :
    eventOf accounts ix = (graduationAt accounts ix).toOption.join := by
  rw [eventOf, detectGraduation_cons]
  cases graduationAt accounts ix with
  | panicked => rfl
  | refused => rfl
  | value found =>
      cases found with
      | none => rfl
      | some event => rfl

theorem eventOf_isSome_iff (ix : CompiledInstruction) :
    (eventOf accounts ix).isSome = true ↔ Graduates accounts ix := by
  rcases graduationAt_spec accounts ix with ⟨event, stops, passes⟩
  rw [eventOf_eq]
  constructor
  · intro found
    by_contra none_
    by_cases malformed : Malformed accounts ix
    · rw [stops malformed] at found
      cases found
    · rw [passes none_ malformed] at found
      cases found
  · intro graduates
    rcases event graduates with ⟨held, same⟩
    rw [same]
    rfl

/-- No event stands behind a malformed instruction without one before it. -/
def NoneHidden (instructions : List CompiledInstruction) : Prop :=
  ∀ before ix after, instructions = before ++ ix :: after →
    (∀ earlier ∈ before, ¬Graduates accounts earlier) → Malformed accounts ix →
      ∀ later ∈ after, ¬Graduates accounts later

theorem noneHidden_cons_iff (ix : CompiledInstruction) (rest : List CompiledInstruction) :
    NoneHidden accounts (ix :: rest) ↔
      (Malformed accounts ix → ∀ later ∈ rest, ¬Graduates accounts later) ∧
        (¬Graduates accounts ix → NoneHidden accounts rest) := by
  constructor
  · intro none_
    constructor
    · intro malformed
      exact none_ [] ix rest rfl (by simp) malformed
    · intro noEvent before other after split earlier
      apply none_ (ix :: before) other after (congrArg (List.cons ix) split)
      intro held member
      rcases List.mem_cons.mp member with same | inside
      · exact same ▸ noEvent
      · exact earlier held inside
  · intro ⟨first, others⟩ before other after split earlier
    cases before with
    | nil =>
        cases split
        exact first
    | cons head tail =>
        cases split
        exact others (earlier ix List.mem_cons_self) tail other after rfl
          (fun held member => earlier held (List.mem_cons_of_mem _ member))

theorem findSome?_eventOf_eq_none_iff (instructions : List CompiledInstruction) :
    instructions.findSome? (eventOf accounts) = none ↔
      ∀ ix ∈ instructions, ¬Graduates accounts ix := by
  rw [List.findSome?_eq_none_iff]
  refine forall₂_congr (fun ix _ => ?_)
  rw [← eventOf_isSome_iff, Option.not_isSome_iff_eq_none]

/-- The search gives the event of the first instruction that has one alone exactly if no
malformed instruction stands before the first event. -/
theorem detectGraduation_per_instruction_iff (instructions : List CompiledInstruction) :
    (detectGraduation accounts instructions).toOption =
        instructions.findSome? (eventOf accounts) ↔
      NoneHidden accounts instructions := by
  induction instructions with
  | nil =>
      constructor
      · intro _ before ix after split
        cases before <;> cases split
      · intro _
        rfl
  | cons ix rest ih =>
      rcases graduationAt_spec accounts ix with ⟨event, stops, passes⟩
      rw [noneHidden_cons_iff, detectGraduation_cons, List.findSome?_cons, eventOf_eq]
      by_cases graduates : Graduates accounts ix
      · rcases event graduates with ⟨held, found⟩
        rw [found]
        constructor
        · intro _
          exact ⟨fun malformed => absurd malformed (not_malformed_of_graduates accounts ix graduates),
            fun noEvent => absurd graduates noEvent⟩
        · intro _
          rfl
      · by_cases malformed : Malformed accounts ix
        · have hidden := findSome?_eventOf_eq_none_iff accounts rest
          rw [stops malformed]
          constructor
          · intro same
            have quiet := hidden.mp same.symm
            exact ⟨fun _ => quiet, fun _ before other after split _ _ later member =>
              quiet later (by rw [split]; simp [member])⟩
          · intro quiet
            exact (hidden.mpr (quiet.1 malformed)).symm
        · rw [passes graduates malformed]
          refine ih.trans ?_
          constructor
          · intro none_
            exact ⟨fun bad => absurd bad malformed, fun _ => none_⟩
          · intro both
            exact both.2 graduates

end

/-- A migration with no accounts, then one with all of them. -/
def brokenThenMigrated : List CompiledInstruction :=
  [⟨0, [], pumpFunMigrateDisc⟩, ⟨0, [1, 2, 3], pumpFunMigrateDisc⟩]

def migrationKeys : List Pubkey := [pumpFunProgram, .ofNat 1, .ofNat 2, .ofNat 3]

/-- The second instruction alone is an event, and it is not found behind the first. -/
theorem broken_instruction_hides_event :
    (detectGraduation migrationKeys brokenThenMigrated).toOption ≠
      brokenThenMigrated.findSome? (eventOf migrationKeys) := by
  have hidden : (detectGraduation migrationKeys brokenThenMigrated).toOption.isSome = false := by
    decide +kernel
  have found : (brokenThenMigrated.findSome? (eventOf migrationKeys)).isSome = true := by
    decide +kernel
  intro same
  rw [same, found] at hidden
  cases hidden

end Helios.GraduationSearch
