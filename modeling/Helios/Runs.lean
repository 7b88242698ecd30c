import Mathlib.Data.List.Induction

/-! Runs of a deterministic step function and the states they pass through. -/

namespace Helios.Runs

variable {State Input : Type*}

def run (step : State → Input → State) (start : State) (inputs : List Input) : State :=
  inputs.foldl step start

/-- Every input of a run, paired with the state it meets. -/
def trace (step : State → Input → State) : State → List Input → List (State × Input)
  | _, [] => []
  | state, input :: rest => (state, input) :: trace step (step state input) rest

@[simp] theorem run_nil (step : State → Input → State) (start : State) :
    run step start [] = start := rfl

@[simp] theorem run_cons (step : State → Input → State) (start : State) (input : Input)
    (rest : List Input) : run step start (input :: rest) = run step (step start input) rest := rfl

theorem run_append (step : State → Input → State) (start : State) (left right : List Input) :
    run step start (left ++ right) = run step (run step start left) right := by
  simp [run, List.foldl_append]

theorem trace_append (step : State → Input → State) (start : State) (left right : List Input) :
    trace step start (left ++ right) =
      trace step start left ++ trace step (run step start left) right := by
  induction left generalizing start with
  | nil => rfl
  | cons input rest ih => simp [trace, ih]

theorem trace_input (step : State → Input → State) (start : State) (inputs : List Input) :
    ∀ pair ∈ trace step start inputs, pair.2 ∈ inputs := by
  induction inputs generalizing start with
  | nil => intro pair member; simp [trace] at member
  | cons input rest ih =>
      intro pair member
      rcases List.mem_cons.mp member with rfl | later
      · simp
      · exact List.mem_cons_of_mem _ (ih (step start input) pair later)

theorem mem_trace (step : State → Input → State) (start : State) (before later : List Input)
    (input : Input) :
    (run step start before, input) ∈ trace step start (before ++ input :: later) := by
  rw [trace_append]
  exact List.mem_append_right _ List.mem_cons_self

/-- An invariant need only be kept by the steps the run really takes. -/
theorem run_invariant (step : State → Input → State) (invariant : State → Prop)
    (start : State) (inputs : List Input) (base : invariant start)
    (keeps : ∀ pair ∈ trace step start inputs, invariant pair.1 →
      invariant (step pair.1 pair.2)) :
    invariant (run step start inputs) := by
  induction inputs generalizing start with
  | nil => exact base
  | cons input rest ih =>
      have next := keeps (start, input) (by simp [trace]) base
      exact ih (step start input) next
        (fun pair member => keeps pair (by simp [trace, member]))

/-- The same for the state each step meets. -/
theorem trace_invariant (step : State → Input → State) (invariant : State → Prop)
    (start : State) (inputs : List Input) (base : invariant start)
    (keeps : ∀ pair ∈ trace step start inputs, invariant pair.1 →
      invariant (step pair.1 pair.2)) :
    ∀ pair ∈ trace step start inputs, invariant pair.1 := by
  induction inputs generalizing start with
  | nil => intro pair member; simp [trace] at member
  | cons input rest ih =>
      intro pair member
      rcases List.mem_cons.mp member with rfl | later
      · exact base
      · have next := keeps (start, input) (by simp [trace]) base
        exact ih (step start input) next
          (fun other inside => keeps other (by simp [trace, inside])) pair later

/-! Runs of a step that may fail, which ends the run. -/

section Fallible

variable {ε : Type*} (step : State → Input → Except ε State)

/-- A law of single steps, kept by every step of a run. -/
def Along (holds : State → Input → State → Prop) : State → List Input → Prop
  | _, [] => True
  | state, input :: rest =>
      ∀ next, step state input = .ok next → holds state input next ∧ Along holds next rest

/-- Two laws that agree from every state of an invariant agree along a run, if the
first one keeps the invariant. -/
theorem along_iff (invariant : State → Prop) (holds meets : State → Input → State → Prop)
    (agree : ∀ state input next, invariant state → step state input = .ok next →
      (holds state input next ↔ meets state input next) ∧
        (holds state input next → invariant next))
    (start : State) (inputs : List Input) (base : invariant start) :
    Along step holds start inputs ↔ Along step meets start inputs := by
  induction inputs generalizing start with
  | nil => exact Iff.rfl
  | cons input rest ih =>
      constructor
      · intro law next done
        rcases law next done with ⟨here, later⟩
        rcases agree start input next base done with ⟨same, keeps⟩
        exact ⟨same.mp here, (ih next (keeps here)).mp later⟩
      · intro law next done
        rcases law next done with ⟨here, later⟩
        rcases agree start input next base done with ⟨same, keeps⟩
        have held := same.mpr here
        exact ⟨held, (ih next (keeps held)).mpr later⟩

/-- A law that another one brings about from every state of an invariant. -/
theorem along_of_along (invariant : State → Prop) (meets holds : State → Input → State → Prop)
    (keeps : ∀ state input next, invariant state → step state input = .ok next → invariant next)
    (follows : ∀ state input next, invariant state → step state input = .ok next →
      meets state input next → holds state input next)
    (start : State) (inputs : List Input) (base : invariant start)
    (law : Along step meets start inputs) : Along step holds start inputs := by
  induction inputs generalizing start with
  | nil => trivial
  | cons input rest ih =>
      intro next done
      obtain ⟨here, later⟩ := law next done
      exact ⟨follows start input next base done here,
        ih next (keeps start input next base done) later⟩

/-- A law that holds along a run holds along its end. -/
theorem along_append (holds : State → Input → State → Prop) (start middle : State)
    (left right : List Input) (law : Along step holds start (left ++ right))
    (ran : left.foldlM step start = .ok middle) : Along step holds middle right := by
  induction left generalizing start with
  | nil =>
      rw [← Except.ok.inj ran]
      exact law
  | cons input rest ih =>
      rw [List.foldlM_cons] at ran
      cases first : step start input with
      | error failed =>
          rw [first] at ran
          cases ran
      | ok next =>
          rw [first] at ran
          exact ih next (law next first).2 ran

/-- A law that holds along a run and from where the run ends on. -/
theorem along_append_of (holds : State → Input → State → Prop) (start : State)
    (left right : List Input) (first : Along step holds start left)
    (then_ : ∀ middle, left.foldlM step start = .ok middle → Along step holds middle right) :
    Along step holds start (left ++ right) := by
  induction left generalizing start with
  | nil => exact then_ start rfl
  | cons input rest ih =>
      intro next done
      obtain ⟨here, later⟩ := first next done
      refine ⟨here, ih next later (fun middle ran => then_ middle ?_)⟩
      rw [List.foldlM_cons, done]
      exact ran

/-- A law that a step of a run breaks does not hold along it. -/
theorem not_along (holds : State → Input → State → Prop) (start middle next : State)
    (left : List Input) (last : Input) (ran : left.foldlM step start = .ok middle)
    (done : step middle last = .ok next) (broken : ¬ holds middle last next) :
    ¬ Along step holds start (left ++ [last]) := by
  intro law
  exact broken (along_append step holds start middle left [last] law ran next done).1

/-- A run that failed did so at one of its inputs, the ones before it done. -/
theorem foldlM_error_iff (start : State) (inputs : List Input) (failed : ε) :
    inputs.foldlM step start = .error failed ↔
      ∃ before input later state, inputs = before ++ input :: later ∧
        before.foldlM step start = .ok state ∧ step state input = .error failed := by
  constructor
  · intro ran
    induction inputs generalizing start with
    | nil => cases ran
    | cons input rest ih =>
        rw [List.foldlM_cons] at ran
        cases first : step start input with
        | error other =>
            rw [first] at ran
            cases ran
            exact ⟨[], input, rest, start, rfl, rfl, first⟩
        | ok next =>
            rw [first] at ran
            rcases ih next ran with ⟨before, last, later, state, split, reached, stopped⟩
            refine ⟨input :: before, last, later, state, congrArg (List.cons input) split, ?_,
              stopped⟩
            rw [List.foldlM_cons, first]
            exact reached
  · intro ⟨before, input, later, state, split, reached, stopped⟩
    rw [split, List.foldlM_append, reached]
    change (input :: later).foldlM step state = _
    rw [List.foldlM_cons, stopped]
    rfl

/-- The invariant of a run that may fail, over the inputs it took. -/
theorem foldlM_invariant (invariant : List Input → State → Prop) (start : State)
    (base : invariant [] start)
    (keeps : ∀ before state input next, invariant before state → step state input = .ok next →
      invariant (before ++ [input]) next)
    (inputs : List Input) (state : State) (ran : inputs.foldlM step start = .ok state) :
    invariant inputs state := by
  induction inputs using List.reverseRecOn generalizing state with
  | nil =>
      rw [← Except.ok.inj ran]
      exact base
  | append_singleton before input ih =>
      rw [List.foldlM_append] at ran
      cases earlier : before.foldlM step start with
      | error failed =>
          rw [earlier] at ran
          cases ran
      | ok middle =>
          rw [earlier] at ran
          change [input].foldlM step middle = _ at ran
          rw [List.foldlM_cons] at ran
          cases done : step middle input with
          | error failed =>
              rw [done] at ran
              cases ran
          | ok next =>
              rw [done] at ran
              rw [← Except.ok.inj ran]
              exact keeps before middle input next (ih middle earlier) done

end Fallible

end Helios.Runs
