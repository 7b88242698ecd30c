import Mathlib.Data.List.Forall2
import Mathlib.Tactic

/-! Fallible steps over a list, and lists indexed by a range. -/

namespace Helios.Fallible

variable {ε α β : Type}

theorem ok_bind (value : α) (next : α → Except ε β) :
    (Except.ok value >>= next) = next value := rfl

theorem mapM_exists (f : α → Except ε β) (related : α → β → Prop)
    (inputs : List α) (each : ∀ input ∈ inputs, ∃ output, f input = .ok output ∧
      related input output) :
    ∃ outputs, inputs.mapM f = .ok outputs ∧ List.Forall₂ related inputs outputs := by
  induction inputs with
  | nil => exact ⟨[], rfl, List.Forall₂.nil⟩
  | cons input rest ih =>
      obtain ⟨output, done, fits⟩ := each input List.mem_cons_self
      obtain ⟨outputs, doneRest, fitsRest⟩ := ih (fun later member =>
        each later (List.mem_cons_of_mem _ member))
      refine ⟨output :: outputs, ?_, List.Forall₂.cons fits fitsRest⟩
      rw [List.mapM_cons, done, doneRest]
      rfl

theorem mapM_each (f : α → Except ε β) (inputs : List α) (outputs : List β)
    (done : inputs.mapM f = .ok outputs) : ∀ input ∈ inputs, ∃ output, f input = .ok output := by
  induction inputs generalizing outputs with
  | nil => intro input member; cases member
  | cons first rest ih =>
      rw [List.mapM_cons] at done
      cases here : f first with
      | error message =>
          rw [here] at done
          cases done
      | ok output =>
          rw [here] at done
          cases later : rest.mapM f with
          | error message =>
              rw [later] at done
              cases done
          | ok others =>
              intro input member
              rcases List.mem_cons.mp member with rfl | inRest
              · exact ⟨output, here⟩
              · exact ih others later input inRest

theorem set_map_range (f : Nat → α) (count place : Nat) (value : α) :
    ((List.range count).map f).set place value =
      (List.range count).map (fun other => if other = place then value else f other) := by
  apply List.ext_getElem?
  intro index
  rw [List.getElem?_set, List.length_map, List.length_range, List.getElem?_map,
    List.getElem?_map]
  by_cases inside : index < count
  · rw [List.getElem?_range inside]
    by_cases same : place = index
    · simp [same, inside]
    · simp [same, Ne.symm same]
  · rw [List.getElem?_eq_none (by rw [List.length_range]; omega)]
    by_cases same : place = index
    · simp [same, inside]
    · simp [same]

theorem getD_map_range (f : Nat → α) (count place : Nat) (default : α)
    (inside : place < count) : ((List.range count).map f).getD place default = f place := by
  rw [List.getD_eq_getElem?_getD, List.getElem?_map, List.getElem?_range inside]
  rfl

theorem forall₂_range (related : Nat → β → Prop) (count : Nat) (outputs : List β)
    (each : List.Forall₂ related (List.range count) outputs) :
    outputs.length = count ∧ ∀ place < count, ∀ default,
      related place (outputs.getD place default) := by
  have lengths := each.length_eq
  rw [List.length_range] at lengths
  refine ⟨lengths.symm, ?_⟩
  intro place inside default
  have here := (List.forall₂_iff_get.mp each).2 place
    (by rw [List.length_range]; exact inside) (by omega)
  rw [List.get_eq_getElem, List.getElem_range] at here
  rw [List.getD_eq_getElem?_getD, List.getElem?_eq_getElem (by omega)]
  exact here

theorem exists_of_forall₂ (related : α → β → Prop) (inputs : List α)
    (outputs : List β) (each : List.Forall₂ related inputs outputs) :
    ∀ output ∈ outputs, ∃ input ∈ inputs, related input output := by
  induction each with
  | nil => intro output member; cases member
  | cons here later ih =>
      intro output member
      rcases List.mem_cons.mp member with rfl | inRest
      · exact ⟨_, List.mem_cons_self, here⟩
      · obtain ⟨input, inInputs, fits⟩ := ih output inRest
        exact ⟨input, List.mem_cons_of_mem _ inInputs, fits⟩

theorem mapM_forall₂ (f : α → Except ε β) (inputs : List α) (outputs : List β)
    (done : inputs.mapM f = .ok outputs) :
    List.Forall₂ (fun input output => f input = .ok output) inputs outputs := by
  rcases mapM_exists f (fun input output => f input = .ok output) inputs (fun input member =>
    (mapM_each f inputs outputs done input member).imp (fun _ here => ⟨here, here⟩)) with
    ⟨others, again, each⟩
  rw [done] at again
  cases again
  exact each

theorem mapM_outputs (f : α → Except ε β) (inputs : List α) (outputs : List β)
    (done : inputs.mapM f = .ok outputs) :
    ∀ output ∈ outputs, ∃ input ∈ inputs, f input = .ok output :=
  exists_of_forall₂ _ inputs outputs (mapM_forall₂ f inputs outputs done)

/-- A result that succeeds, with its value named. -/
theorem eq_ok_of_isSome (result : Except ε α) (default : α)
    (done : result.toOption.isSome = true) : result = .ok (result.toOption.getD default) := by
  cases result with
  | error failed => cases done
  | ok value => rfl

theorem bind_eq_ok_iff (first : Except ε α) (next : α → Except ε β) (result : β) :
    (first >>= next) = .ok result ↔ ∃ value, first = .ok value ∧ next value = .ok result := by
  cases first with
  | error failed =>
      constructor
      · intro absurd
        cases absurd
      · intro ⟨value, absurd, later⟩
        cases absurd
  | ok value =>
      constructor
      · exact fun later => ⟨value, rfl, later⟩
      · intro ⟨other, same, later⟩
        cases same
        exact later

theorem bind_eq_error_iff (first : Except ε α) (next : α → Except ε β) (failed : ε) :
    (first >>= next) = .error failed ↔
      first = .error failed ∨ ∃ value, first = .ok value ∧ next value = .error failed := by
  cases first with
  | error other =>
      constructor
      · intro same
        cases same
        exact Or.inl rfl
      · intro either
        rcases either with same | ⟨value, absurd, later⟩
        · cases same
          rfl
        · cases absurd
  | ok value =>
      constructor
      · exact fun later => Or.inr ⟨value, rfl, later⟩
      · intro either
        rcases either with absurd | ⟨other, same, later⟩
        · cases absurd
        · cases same
          exact later

/-- Steps that each succeed succeed together. -/
theorem mapM_ok (f : α → Except ε β) (inputs : List α)
    (each : ∀ input ∈ inputs, ∃ output, f input = .ok output) :
    ∃ outputs, inputs.mapM f = .ok outputs := by
  rcases mapM_exists f (fun _ _ => True) inputs (fun input member =>
    (each input member).imp (fun _ done => ⟨done, trivial⟩)) with ⟨outputs, done, _⟩
  exact ⟨outputs, done⟩

/-- Inputs told apart by the step have the same images when their outputs are the same. -/
theorem mapM_separates {γ : Type} (f : α → Except ε β) (image : α → γ)
    (separates : ∀ input other output, f input = .ok output → f other = .ok output →
      image input = image other)
    (inputs : List α) :
    ∀ (others : List α) (outputs : List β), inputs.mapM f = .ok outputs →
      others.mapM f = .ok outputs → inputs.map image = others.map image := by
  induction inputs with
  | nil =>
      intro others outputs done again
      cases done
      cases others with
      | nil => rfl
      | cons other later =>
          rw [List.mapM_cons, bind_eq_ok_iff] at again
          obtain ⟨output, -, rest⟩ := again
          rw [bind_eq_ok_iff] at rest
          obtain ⟨outputs, -, absurd⟩ := rest
          cases absurd
  | cons input rest ih =>
      intro others outputs done again
      rw [List.mapM_cons, bind_eq_ok_iff] at done
      obtain ⟨output, here, done⟩ := done
      rw [bind_eq_ok_iff] at done
      obtain ⟨tail, doneRest, shape⟩ := done
      cases shape
      cases others with
      | nil => cases again
      | cons other later =>
          rw [List.mapM_cons, bind_eq_ok_iff] at again
          obtain ⟨same, there, again⟩ := again
          rw [bind_eq_ok_iff] at again
          obtain ⟨sameTail, againRest, shape⟩ := again
          cases shape
          rw [List.map_cons, List.map_cons, separates input other output here there,
            ih later tail doneRest againRest]

/-! Loops that may stop. -/

section Loops

variable {γ : Type} (step : β → α → Except ε β)

theorem foldlM_cons_ok_iff (input : α) (rest : List α) (start after : β) :
    (input :: rest).foldlM step start = .ok after ↔
      ∃ middle, step start input = .ok middle ∧ rest.foldlM step middle = .ok after := by
  rw [List.foldlM_cons, bind_eq_ok_iff]

/-- A loop whose steps all succeed is a plain one. -/
theorem foldlM_ok (plain : β → α → β) (inputs : List α) (start : β) :
    inputs.foldlM (fun state input => (.ok (plain state input) : Except ε β)) start =
      .ok (inputs.foldl plain start) := by
  induction inputs generalizing start with
  | nil => rfl
  | cons input rest ih =>
      rw [List.foldlM_cons, ok_bind, ih, List.foldl_cons]

theorem foldlM_invariant (invariant : β → Prop) (inputs : List α) (start after : β)
    (base : invariant start)
    (keeps : ∀ input ∈ inputs, ∀ state next, invariant state → step state input = .ok next →
      invariant next) (done : inputs.foldlM step start = .ok after) : invariant after := by
  induction inputs generalizing start with
  | nil =>
      cases done
      exact base
  | cons input rest ih =>
      rcases (foldlM_cons_ok_iff step input rest start after).mp done with ⟨middle, here, later⟩
      exact ih middle (keeps input List.mem_cons_self start middle base here)
        (fun other member => keeps other (List.mem_cons_of_mem _ member)) later

/-- What a loop leaves in a place that some inputs write: the last value written, or
what was there before. -/
theorem foldlM_last (invariant : β → Prop) (observe : β → Option γ) (write : α → Option γ)
    (inputs : List α) (start after : β) (base : invariant start)
    (each : ∀ input ∈ inputs, ∀ state next, invariant state → step state input = .ok next →
      invariant next ∧ observe next = (write input).or (observe state))
    (done : inputs.foldlM step start = .ok after) :
    observe after = (inputs.filterMap write).getLast?.or (observe start) := by
  induction inputs generalizing start with
  | nil =>
      cases done
      rfl
  | cons input rest ih =>
      rcases (foldlM_cons_ok_iff step input rest start after).mp done with ⟨middle, here, later⟩
      have first := each input List.mem_cons_self start middle base here
      rw [ih middle first.1 (fun other member => each other (List.mem_cons_of_mem _ member)) later,
        first.2]
      cases written : write input with
      | none => rw [List.filterMap_cons_none written, Option.none_or]
      | some value =>
          rw [List.filterMap_cons_some written, List.getLast?_cons, Option.some_or]
          cases (rest.filterMap write).getLast? with
          | none => rfl
          | some last => rfl

end Loops

end Helios.Fallible
