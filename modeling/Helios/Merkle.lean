import Mathlib.Data.Nat.Bitwise
import Mathlib.Data.Nat.Log
import Mathlib.Tactic

/-! Binary hash trees over any number of leaves, the last node of an odd level
paired with itself, and the proofs they give. A node enters a join through its
`entry`, which may keep only a part of it. -/

namespace Helios.Merkle

variable {Node Entry : Type*} (entry : Node → Entry) (join : Entry → Entry → Node)

/-- The level above. -/
def parents : List Node → List Node
  | [] => []
  | [node] => [join (entry node) (entry node)]
  | left :: right :: rest => join (entry left) (entry right) :: parents rest

theorem length_parents (nodes : List Node) :
    (parents entry join nodes).length = (nodes.length + 1) / 2 := by
  induction nodes using parents.induct with
  | case1 => simp [parents]
  | case2 node => simp [parents]
  | case3 left right rest ih =>
      rw [parents, List.length_cons, ih, List.length_cons, List.length_cons]
      omega

theorem length_parents_lt (nodes : List Node) (many : 1 < nodes.length) :
    (parents entry join nodes).length < nodes.length := by
  rw [length_parents]
  omega

/-- Where the second child of a parent, or of the sibling, stands. -/
theorem getElem_parents (nodes : List Node) (index : Nat) (left right : Node)
    (foundLeft : nodes[2 * index]? = some left)
    (foundRight : nodes[min (2 * index + 1) (nodes.length - 1)]? = some right) :
    (parents entry join nodes)[index]? = some (join (entry left) (entry right)) := by
  induction nodes using parents.induct generalizing index with
  | case1 => simp at foundLeft
  | case2 node =>
      cases index with
      | zero =>
          simp only [Nat.mul_zero, List.getElem?_cons_zero, Option.some.injEq] at foundLeft
          simp only [List.length_singleton, Nat.sub_self, Nat.min_zero,
            List.getElem?_cons_zero, Option.some.injEq] at foundRight
          rw [parents, List.getElem?_cons_zero, ← foundLeft, ← foundRight]
      | succ index =>
          rw [Nat.mul_succ, List.getElem?_cons_succ] at foundLeft
          simp at foundLeft
  | case3 first second rest ih =>
      cases index with
      | zero =>
          have place : min (2 * 0 + 1) ((first :: second :: rest).length - 1) = 1 := by
            simp only [List.length_cons]
            omega
          rw [place] at foundRight
          simp only [Nat.mul_zero, List.getElem?_cons_zero, Option.some.injEq] at foundLeft
          simp only [List.getElem?_cons_succ, List.getElem?_cons_zero,
            Option.some.injEq] at foundRight
          rw [parents, List.getElem?_cons_zero, foundLeft, foundRight]
      | succ index =>
          rw [Nat.mul_succ, List.getElem?_cons_succ, List.getElem?_cons_succ] at foundLeft
          have inside : 2 * index < rest.length := (List.getElem?_eq_some_iff.mp foundLeft).1
          have place : min (2 * (index + 1) + 1) ((first :: second :: rest).length - 1) =
              min (2 * index + 1) (rest.length - 1) + 1 + 1 := by
            simp only [List.length_cons]
            omega
          rw [place, List.getElem?_cons_succ, List.getElem?_cons_succ] at foundRight
          rw [parents, List.getElem?_cons_succ]
          exact ih index foundLeft foundRight

/-- All levels, leaves first. -/
def levels (nodes : List Node) : List (List Node) :=
  if _many : 1 < nodes.length then
    nodes :: levels (parents entry join nodes)
  else [nodes]
termination_by nodes.length
decreasing_by exact length_parents_lt entry join nodes _many

def root (nodes : List Node) : Option Node :=
  if _many : 1 < nodes.length then root (parents entry join nodes)
  else nodes.head?
termination_by nodes.length
decreasing_by exact length_parents_lt entry join nodes _many

/-- The entries beside the path from a leaf to the root. -/
def proof (nodes : List Node) (index : Nat) : List Entry :=
  if many : 1 < nodes.length then
    entry (nodes.get ⟨min (index ^^^ 1) (nodes.length - 1), by omega⟩) ::
      proof (parents entry join nodes) (index / 2)
  else []
termination_by nodes.length
decreasing_by exact length_parents_lt entry join nodes many

/-- Fold a proof from a node upwards; an even index is a left child. -/
def climb : Node → Nat → List Entry → Node
  | node, _, [] => node
  | node, index, sibling :: rest =>
      climb (if index % 2 = 0 then join (entry node) sibling else join sibling (entry node))
        (index / 2) rest

theorem proof_of_many (nodes : List Node) (index : Nat) (many : 1 < nodes.length) :
    proof entry join nodes index =
      entry (nodes.get ⟨min (index ^^^ 1) (nodes.length - 1), by omega⟩) ::
        proof entry join (parents entry join nodes) (index / 2) := by
  rw [proof, dif_pos many]

theorem length_proof (nodes : List Node) (index : Nat) :
    (proof entry join nodes index).length = Nat.clog 2 nodes.length := by
  induction nodes, index using proof.induct entry join with
  | case1 nodes index many ih =>
      rw [proof, dif_pos many, List.length_cons, ih, length_parents,
        Nat.clog_of_two_le (by norm_num) many]
      rfl
  | case2 nodes index few =>
      rw [proof, dif_neg few, Nat.clog_of_right_le_one (by omega)]
      rfl

/-- One level of a proof: the node and its sibling join to the parent. -/
theorem step_proof (nodes : List Node) (index : Nat) (node : Node) (many : 1 < nodes.length)
    (found : nodes[index]? = some node) :
    (parents entry join nodes)[index / 2]? = some
      (if index % 2 = 0 then
        join (entry node) (entry (nodes.get ⟨min (index ^^^ 1) (nodes.length - 1), by omega⟩))
      else
        join (entry (nodes.get ⟨min (index ^^^ 1) (nodes.length - 1), by omega⟩)) (entry node)) := by
  have inside : index < nodes.length := (List.getElem?_eq_some_iff.mp found).1
  have sibling : nodes[min (index ^^^ 1) (nodes.length - 1)]? =
      some (nodes.get ⟨min (index ^^^ 1) (nodes.length - 1), by omega⟩) :=
    List.getElem?_eq_getElem (by omega)
  rcases Nat.mod_two_eq_zero_or_one index with even | odd
  · rw [if_pos even]
    apply getElem_parents
    · rw [show 2 * (index / 2) = index by omega]
      exact found
    · have place : index ^^^ 1 = 2 * (index / 2) + 1 := by
        rw [Nat.xor_one_of_even (Nat.even_iff.mpr even)]
        omega
      rw [← place]
      exact sibling
  · rw [if_neg (by omega)]
    have place : index ^^^ 1 = 2 * (index / 2) := by
      rw [Nat.xor_one_of_odd (Nat.odd_iff.mpr odd)]
      omega
    apply getElem_parents
    · have spot : min (index ^^^ 1) (nodes.length - 1) = 2 * (index / 2) := by omega
      rw [← spot]
      exact sibling
    · rw [show min (2 * (index / 2) + 1) (nodes.length - 1) = index by omega]
      exact found

/-- A proof folds from its leaf to the root. -/
theorem climb_proof (nodes : List Node) (index : Nat) (leaf : Node)
    (found : nodes[index]? = some leaf) :
    root entry join nodes = some (climb entry join leaf index (proof entry join nodes index)) := by
  induction nodes, index using proof.induct entry join generalizing leaf with
  | case1 nodes index many ih =>
      rw [root, dif_pos many, proof, dif_pos many, climb]
      exact ih _ (step_proof entry join nodes index leaf many found)
  | case2 nodes index few =>
      have inside : index < nodes.length := (List.getElem?_eq_some_iff.mp found).1
      have first : index = 0 := by omega
      subst first
      rw [root, dif_neg few, proof, dif_neg few, climb, List.head?_eq_getElem?]
      exact found

theorem root_isSome (nodes : List Node) (filled : nodes ≠ []) :
    (root entry join nodes).isSome = true := by
  have first : nodes[0]? = some (nodes.head filled) := by
    rw [← List.head?_eq_getElem?]
    exact List.head?_eq_some_head filled
  rw [climb_proof entry join nodes 0 (nodes.head filled) first]
  rfl

/-- The last node of the last level is the root. -/
theorem getLast?_levels (nodes : List Node) :
    (levels entry join nodes).flatten.getLast? = root entry join nodes := by
  induction nodes using levels.induct entry join with
  | case1 nodes many ih =>
      have above : parents entry join nodes ≠ [] := by
        apply List.ne_nil_of_length_pos
        rw [length_parents]
        omega
      rcases Option.isSome_iff_exists.mp (root_isSome entry join _ above) with ⟨top, found⟩
      rw [levels, dif_pos many, root, dif_pos many, List.flatten_cons, List.getLast?_append, ih,
        found]
      rfl
  | case2 nodes few =>
      rw [levels, dif_neg few, root, dif_neg few, List.flatten_singleton]
      cases nodes with
      | nil => rfl
      | cons node rest =>
          cases rest with
          | nil => rfl
          | cons other rest =>
              rw [List.length_cons, List.length_cons] at few
              omega

/-- The pairs of entries joined to the next level. -/
def pairs : List Node → List (Entry × Entry)
  | [] => []
  | [node] => [(entry node, entry node)]
  | left :: right :: rest => (entry left, entry right) :: pairs rest

/-- The pairs joined on all levels. -/
def allPairs (nodes : List Node) : List (Entry × Entry) :=
  if _many : 1 < nodes.length then
    pairs entry nodes ++ allPairs (parents entry join nodes)
  else []
termination_by nodes.length
decreasing_by exact length_parents_lt entry join nodes _many

theorem allPairs_of_many (nodes : List Node) (many : 1 < nodes.length) :
    allPairs entry join nodes =
      pairs entry nodes ++ allPairs entry join (parents entry join nodes) := by
  rw [allPairs, dif_pos many]

theorem getElem_pairs (nodes : List Node) (index : Nat) (left right : Node)
    (foundLeft : nodes[2 * index]? = some left)
    (foundRight : nodes[min (2 * index + 1) (nodes.length - 1)]? = some right) :
    (entry left, entry right) ∈ pairs entry nodes := by
  induction nodes using parents.induct generalizing index with
  | case1 => simp at foundLeft
  | case2 node =>
      have zero : index = 0 := by
        have inside := (List.getElem?_eq_some_iff.mp foundLeft).1
        simp only [List.length_singleton] at inside
        omega
      subst zero
      simp only [Nat.mul_zero, List.getElem?_cons_zero, Option.some.injEq] at foundLeft
      simp only [List.length_singleton, Nat.sub_self, Nat.min_zero,
        List.getElem?_cons_zero, Option.some.injEq] at foundRight
      simp [pairs, ← foundLeft, ← foundRight]
  | case3 first second rest ih =>
      cases index with
      | zero =>
          have place : min (2 * 0 + 1) ((first :: second :: rest).length - 1) = 1 := by
            simp only [List.length_cons]
            omega
          rw [place] at foundRight
          simp only [Nat.mul_zero, List.getElem?_cons_zero, Option.some.injEq] at foundLeft
          simp only [List.getElem?_cons_succ, List.getElem?_cons_zero,
            Option.some.injEq] at foundRight
          simp [pairs, foundLeft, foundRight]
      | succ index =>
          rw [Nat.mul_succ, List.getElem?_cons_succ, List.getElem?_cons_succ] at foundLeft
          have inside : 2 * index < rest.length := (List.getElem?_eq_some_iff.mp foundLeft).1
          have place : min (2 * (index + 1) + 1) ((first :: second :: rest).length - 1) =
              min (2 * index + 1) (rest.length - 1) + 1 + 1 := by
            simp only [List.length_cons]
            omega
          rw [place, List.getElem?_cons_succ, List.getElem?_cons_succ] at foundRight
          exact List.mem_cons_of_mem _ (ih index foundLeft foundRight)

theorem mem_pairs (nodes : List Node) :
    ∀ pair ∈ pairs entry nodes, ∃ left right, pair = (entry left, entry right) := by
  induction nodes using parents.induct with
  | case1 => intro pair member; cases member
  | case2 node =>
      intro pair member
      exact ⟨node, node, List.mem_singleton.mp member⟩
  | case3 left right rest ih =>
      intro pair member
      rcases List.mem_cons.mp member with same | later
      · exact ⟨left, right, same⟩
      · exact ih pair later

theorem mem_allPairs (nodes : List Node) :
    ∀ pair ∈ allPairs entry join nodes, ∃ left right, pair = (entry left, entry right) := by
  induction nodes using allPairs.induct entry join with
  | case1 nodes many ih =>
      rw [allPairs_of_many entry join nodes many]
      intro pair member
      rcases List.mem_append.mp member with here | above
      · exact mem_pairs entry nodes pair here
      · exact ih pair above
  | case2 nodes few =>
      rw [allPairs, dif_neg few]
      intro pair member
      cases member

/-- Unless two joined pairs collide, a proof binds the entry of every other leaf. -/
theorem proof_binds (nodes others : List Node) (index : Nat)
    (sameLength : nodes.length = others.length)
    (sameProof : proof entry join nodes index = proof entry join others index)
    (noCollision : ∀ pair ∈ allPairs entry join nodes, ∀ other ∈ allPairs entry join others,
      entry (join pair.1 pair.2) = entry (join other.1 other.2) → pair = other)
    (inside : index < nodes.length) (leaf : Nat) (elsewhere : leaf ≠ index)
    (node other : Node) (foundNode : nodes[leaf]? = some node)
    (foundOther : others[leaf]? = some other) : entry node = entry other := by
  induction nodes, index using proof.induct entry join generalizing others leaf node other with
  | case1 nodes index many ih =>
      have manyOthers : 1 < others.length := by omega
      have leafInside : leaf < nodes.length := (List.getElem?_eq_some_iff.mp foundNode).1
      rw [proof_of_many entry join nodes index many,
        proof_of_many entry join others index manyOthers] at sameProof
      obtain ⟨sibling, above⟩ := List.cons.inj sameProof
      rw [allPairs_of_many entry join nodes many,
        allPairs_of_many entry join others manyOthers] at noCollision
      by_cases parent : leaf / 2 = index / 2
      · -- the leaf is the sibling itself
        have place : min (index ^^^ 1) (nodes.length - 1) = leaf := by
          rcases Nat.mod_two_eq_zero_or_one index with even | odd
          · rw [Nat.xor_one_of_even (Nat.even_iff.mpr even)]
            omega
          · rw [Nat.xor_one_of_odd (Nat.odd_iff.mpr odd)]
            omega
        have placeOther : min (index ^^^ 1) (others.length - 1) = leaf := by
          rw [← sameLength]
          exact place
        have here : nodes.get ⟨min (index ^^^ 1) (nodes.length - 1), by omega⟩ = node := by
          have found := List.getElem?_eq_some_iff.mp foundNode
          rw [List.get_eq_getElem]
          simp only [place]
          exact found.2
        have there : others.get ⟨min (index ^^^ 1) (others.length - 1), by omega⟩ = other := by
          have found := List.getElem?_eq_some_iff.mp foundOther
          rw [List.get_eq_getElem]
          simp only [placeOther]
          exact found.2
        rw [here, there] at sibling
        exact sibling
      · -- the leaf's parent is bound, hence the pair joined to it
        have child : ∀ (level : List Node) (place : Nat), place < level.length →
            ∃ found, level[place]? = some found :=
          fun level place within => ⟨_, List.getElem?_eq_getElem within⟩
        obtain ⟨left, foundLeft⟩ := child nodes (2 * (leaf / 2)) (by omega)
        obtain ⟨right, foundRight⟩ :=
          child nodes (min (2 * (leaf / 2) + 1) (nodes.length - 1)) (by omega)
        obtain ⟨left', foundLeft'⟩ := child others (2 * (leaf / 2)) (by omega)
        obtain ⟨right', foundRight'⟩ :=
          child others (min (2 * (leaf / 2) + 1) (others.length - 1)) (by omega)
        have parentEntry := ih _ (by rw [length_parents, length_parents, sameLength]) above
          (fun pair member other memberOther => noCollision pair
            (List.mem_append_right _ member) other (List.mem_append_right _ memberOther))
          (by rw [length_parents]; omega) (leaf / 2) parent _ _
          (getElem_parents entry join nodes _ _ _ foundLeft foundRight)
          (getElem_parents entry join others _ _ _ foundLeft' foundRight')
        have samePair := noCollision _
          (List.mem_append_left _ (getElem_pairs entry nodes _ _ _ foundLeft foundRight)) _
          (List.mem_append_left _ (getElem_pairs entry others _ _ _ foundLeft' foundRight'))
          parentEntry
        obtain ⟨sameLeft, sameRight⟩ := Prod.mk.inj samePair
        rcases Nat.mod_two_eq_zero_or_one leaf with even | odd
        · have spot : 2 * (leaf / 2) = leaf := by omega
          rw [spot, foundNode] at foundLeft
          rw [spot, foundOther] at foundLeft'
          rw [Option.some.inj foundLeft, Option.some.inj foundLeft']
          exact sameLeft
        · have spot : min (2 * (leaf / 2) + 1) (nodes.length - 1) = leaf := by omega
          have spotOther : min (2 * (leaf / 2) + 1) (others.length - 1) = leaf := by omega
          rw [spot, foundNode] at foundRight
          rw [spotOther, foundOther] at foundRight'
          rw [Option.some.inj foundRight, Option.some.inj foundRight']
          exact sameRight
  | case2 nodes index few =>
      have leafInside : leaf < nodes.length := (List.getElem?_eq_some_iff.mp foundNode).1
      omega

end Helios.Merkle
