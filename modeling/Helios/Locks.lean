import Mathlib.Data.List.Basic

/-! Calls that take non-reentrant locks through guards. A guard lives to the end
of its scope, so the locks a call holds are known where it stands; asking for one
of them again never returns. -/

namespace Helios.Locks

variable {Lock State α β : Type}

/-- From the locks held around it and the state, a value and the state after, or
`none` if the call waits for a lock of its own. -/
def Call (Lock State α : Type) := List Lock → State → Option (α × State)

namespace Call

def ret (value : α) : Call Lock State α := fun _ state => some (value, state)

def andThen (first : Call Lock State α) (next : α → Call Lock State β) : Call Lock State β :=
  fun held state => (first held state).bind (fun result => next result.1 held result.2)

instance : Monad (Call Lock State) where
  pure := ret
  bind := andThen

def read : Call Lock State State := fun _ state => some (state, state)

def modify (change : State → State) : Call Lock State Unit := fun _ state => some ((), change state)

/-- Lock, run the rest of the scope, unlock. -/
def withGuard [DecidableEq Lock] (lock : Lock) (scope : Call Lock State α) :
    Call Lock State α :=
  fun held state => if lock ∈ held then none else scope (lock :: held) state

@[simp] theorem pure_apply (value : α) (held : List Lock) (state : State) :
    (pure value : Call Lock State α) held state = some (value, state) := by
  change ret value held state = _
  rw [ret]

@[simp] theorem bind_apply (first : Call Lock State α) (next : α → Call Lock State β)
    (held : List Lock) (state : State) :
    (first >>= next) held state =
      (first held state).bind (fun result => next result.1 held result.2) := by
  change andThen first next held state = _
  rw [andThen]

@[simp] theorem read_apply (held : List Lock) (state : State) :
    (read : Call Lock State State) held state = some (state, state) := by
  rw [read]

@[simp] theorem modify_apply (change : State → State) (held : List Lock) (state : State) :
    (modify change : Call Lock State Unit) held state = some ((), change state) := by
  rw [modify]

theorem withGuard_of_held [DecidableEq Lock] (lock : Lock) (scope : Call Lock State α)
    (held : List Lock) (state : State) (taken : lock ∈ held) :
    withGuard lock scope held state = none := if_pos taken

theorem withGuard_of_free [DecidableEq Lock] (lock : Lock) (scope : Call Lock State α)
    (held : List Lock) (state : State) (free : lock ∉ held) :
    withGuard lock scope held state = scope (lock :: held) state := if_neg free

/-- Under these locks the call returns, from every state. -/
def Returns (held : List Lock) (call : Call Lock State α) : Prop :=
  ∀ state, (call held state).isSome

theorem returns_pure (held : List Lock) (value : α) :
    Returns held (pure value : Call Lock State α) := fun _ => rfl

theorem returns_read (held : List Lock) : Returns held (read : Call Lock State State) :=
  fun _ => rfl

theorem returns_modify (held : List Lock) (change : State → State) :
    Returns held (modify change : Call Lock State Unit) := fun _ => rfl

theorem returns_bind (held : List Lock) (first : Call Lock State α) (next : α → Call Lock State β)
    (here : Returns held first) (later : ∀ value, Returns held (next value)) :
    Returns held (first >>= next) := by
  intro state
  rcases Option.isSome_iff_exists.mp (here state) with ⟨result, done⟩
  rw [bind_apply, done]
  exact later result.1 result.2

theorem returns_modify_bind (held : List Lock) (change : State → State)
    (next : Unit → Call Lock State α) (later : Returns held (next ())) :
    Returns held (modify change >>= next) :=
  returns_bind held _ next (returns_modify held change) (fun _ => later)

theorem returns_ite (held : List Lock) (condition : Prop) [Decidable condition]
    (first second : Call Lock State α) (yes : Returns held first) (no : Returns held second) :
    Returns held (if condition then first else second) := by
  split
  · exact yes
  · exact no

/-- A lock that is free here may be taken, if its scope returns while it is held. -/
theorem returns_withGuard [DecidableEq Lock] (held : List Lock) (lock : Lock)
    (scope : Call Lock State α) (free : lock ∉ held) (inner : Returns (lock :: held) scope) :
    Returns held (withGuard lock scope) := by
  intro state
  rw [withGuard_of_free lock scope held state free]
  exact inner state

/-- Whenever the call returns, the states before and after are related. -/
def Moves (relation : State → State → Prop) (held : List Lock) (call : Call Lock State α) : Prop :=
  ∀ state value after, call held state = some (value, after) → relation state after

section Moves

variable (relation : State → State → Prop) (held : List Lock)

theorem moves_pure (refl : ∀ state, relation state state) (value : α) :
    Moves relation held (pure value : Call Lock State α) := by
  intro state other after done
  cases done
  exact refl state

theorem moves_read (refl : ∀ state, relation state state) :
    Moves relation held (read : Call Lock State State) := by
  intro state other after done
  cases done
  exact refl state

theorem moves_modify (change : State → State) (each : ∀ state, relation state (change state)) :
    Moves relation held (modify change : Call Lock State Unit) := by
  intro state other after done
  cases done
  exact each state

theorem moves_bind (trans : ∀ first middle last, relation first middle → relation middle last →
    relation first last) (first : Call Lock State α) (next : α → Call Lock State β)
    (here : Moves relation held first) (later : ∀ value, Moves relation held (next value)) :
    Moves relation held (first >>= next) := by
  intro state value after done
  rw [bind_apply] at done
  rcases Option.bind_eq_some_iff.mp done with ⟨⟨middle, between⟩, firstDone, rest⟩
  exact trans state between after (here state middle between firstDone)
    (later middle between value after rest)

theorem moves_ite (condition : Prop) [Decidable condition] (first second : Call Lock State α)
    (yes : Moves relation held first) (no : Moves relation held second) :
    Moves relation held (if condition then first else second) := by
  split
  · exact yes
  · exact no

theorem moves_withGuard [DecidableEq Lock] (lock : Lock) (scope : Call Lock State α)
    (inner : lock ∉ held → Moves relation (lock :: held) scope) :
    Moves relation held (withGuard lock scope) := by
  intro state value after done
  by_cases taken : lock ∈ held
  · rw [withGuard_of_held lock scope held state taken] at done
    cases done
  · rw [withGuard_of_free lock scope held state taken] at done
    exact inner taken state value after done

end Moves

end Call

end Helios.Locks
