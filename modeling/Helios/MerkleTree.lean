import Helios.FecSet
import Helios.Merkle

/-! The assembler's tree and proofs are those of the generic hash tree. -/

namespace Helios.MerkleTree

variable (ledger : Ledger)

def parents (nodes : List Hash) : List Hash :=
  Merkle.parents proofEntry (joinEntries ledger) nodes

def levels (nodes : List Hash) : List (List Hash) :=
  Merkle.levels proofEntry (joinEntries ledger) nodes

def root (nodes : List Hash) : Option Hash :=
  Merkle.root proofEntry (joinEntries ledger) nodes

def proof (nodes : List Hash) (index : Nat) : List Bytes :=
  Merkle.proof proofEntry (joinEntries ledger) nodes index

theorem nextLevel_eq_parents (below level : List Hash) :
    nextLevel ledger (below ++ level) below.length level.length = parents ledger level := by
  apply List.ext_getElem?
  intro index
  have count : (parents ledger level).length = (level.length + 1) / 2 :=
    Merkle.length_parents proofEntry (joinEntries ledger) level
  by_cases inside : index < (level.length + 1) / 2
  · have left : ∃ node, level[2 * index]? = some node :=
      ⟨_, List.getElem?_eq_getElem (by omega)⟩
    have right : ∃ node, level[min (2 * index + 1) (level.length - 1)]? = some node :=
      ⟨_, List.getElem?_eq_getElem (by omega)⟩
    obtain ⟨leftNode, foundLeft⟩ := left
    obtain ⟨rightNode, foundRight⟩ := right
    have parent := Merkle.getElem_parents proofEntry (joinEntries ledger) level index _ _
      foundLeft foundRight
    have leftPlace : (below ++ level).getD (below.length + 2 * index) default = leftNode := by
      rw [List.getD_eq_getElem?_getD, List.getElem?_append_right (by omega),
        Nat.add_sub_cancel_left, foundLeft]
      rfl
    have rightPlace : (below ++ level).getD (min (below.length + 2 * index + 1)
        (below.length + level.length - 1)) default = rightNode := by
      rw [List.getD_eq_getElem?_getD, List.getElem?_append_right (by omega),
        show min (below.length + 2 * index + 1) (below.length + level.length - 1) - below.length =
          min (2 * index + 1) (level.length - 1) by omega, foundRight]
      rfl
    rw [parents, parent, nextLevel, List.getElem?_map, List.getElem?_range inside]
    simp only [Option.map_some, leftPlace, rightPlace, joinNodes]
  · rw [List.getElem?_eq_none (by rw [nextLevel, List.length_map, List.length_range]; omega),
      List.getElem?_eq_none (by omega)]

theorem growMerkleTree_eq (fuel : Nat) (below level : List Hash) (enough : level.length ≤ fuel) :
    growMerkleTree ledger fuel (below ++ level) level.length =
      below ++ (levels ledger level).flatten := by
  induction fuel generalizing below level with
  | zero =>
      rw [growMerkleTree, levels, Merkle.levels, dif_neg (by omega)]
      simp
  | succ fuel ih =>
      rw [growMerkleTree, levels, Merkle.levels]
      by_cases many : 1 < level.length
      · rw [if_pos many, dif_pos many]
        have offset : (below ++ level).length - level.length = below.length := by
          rw [List.length_append, Nat.add_sub_cancel]
        have fewer := Merkle.length_parents_lt proofEntry (joinEntries ledger) level many
        dsimp only
        rw [offset, nextLevel_eq_parents]
        have size : (below ++ level ++ parents ledger level).length - below.length - level.length =
            (parents ledger level).length := by
          simp only [List.length_append]
          omega
        rw [size, ih (below ++ level) (parents ledger level) (by rw [parents]; omega),
          List.flatten_cons, List.append_assoc]
        rfl
      · rw [if_neg many, dif_neg many]
        simp

/-- The source's tree lists the levels one after the other. -/
theorem makeMerkleTree_eq (nodes : List Hash) :
    makeMerkleTree ledger nodes = (levels ledger nodes).flatten := by
  have grown := growMerkleTree_eq ledger nodes.length [] nodes (Nat.le_refl _)
  rwa [List.nil_append, List.nil_append] at grown

theorem collectMerkleProof_eq (fuel : Nat) (below level : List Hash) (index : Nat)
    (enough : level.length ≤ fuel) (inside : index < level.length) :
    collectMerkleProof (below ++ (levels ledger level).flatten) fuel index level.length
      below.length = some (proof ledger level index) := by
  induction fuel generalizing below level index with
  | zero => omega
  | succ fuel ih =>
      rw [collectMerkleProof, levels, Merkle.levels, proof, Merkle.proof]
      by_cases many : 1 < level.length
      · rw [if_pos many, dif_pos many, dif_pos many, List.flatten_cons]
        have place : min (index ^^^ 1) (level.length - 1) < level.length := by omega
        have sibling : (below ++ (level ++ (Merkle.levels proofEntry (joinEntries ledger)
            (Merkle.parents proofEntry (joinEntries ledger) level)).flatten))[below.length +
              min (index ^^^ 1) (level.length - 1)]? =
            some (level.get ⟨min (index ^^^ 1) (level.length - 1), place⟩) := by
          rw [List.getElem?_append_right (by omega), Nat.add_sub_cancel_left,
            List.getElem?_append_left place, List.getElem?_eq_getElem place]
          rfl
        have count := Merkle.length_parents proofEntry (joinEntries ledger) level
        have above := ih (below ++ level) (parents ledger level) (index / 2)
          (by rw [parents]; omega) (by rw [parents]; omega)
        rw [sibling]
        dsimp only
        rw [List.append_assoc, List.length_append, levels, parents, count] at above
        rw [above]
        rfl
      · have single : level.length = 1 := by omega
        rw [if_neg many, dif_neg many, dif_neg many, if_pos]
        simp [single]

/-- For a leaf of the tree the source's proof is the one beside its path. -/
theorem makeMerkleProof_eq (nodes : List Hash) (index : Nat) (inside : index < nodes.length) :
    makeMerkleProof index nodes.length (makeMerkleTree ledger nodes) =
      some (proof ledger nodes index) := by
  have collected := collectMerkleProof_eq ledger nodes.length [] nodes index (Nat.le_refl _) inside
  rw [List.nil_append, List.length_nil] at collected
  rw [makeMerkleProof, if_neg (by omega), makeMerkleTree_eq]
  exact collected

theorem length_proof (nodes : List Hash) (index : Nat) :
    (proof ledger nodes index).length = Nat.clog 2 nodes.length :=
  Merkle.length_proof proofEntry (joinEntries ledger) nodes index

theorem length_proofEntry (node : Hash) : (proofEntry node).length = merkleProofEntrySize := by
  rw [proofEntry, List.length_take, node.property]
  rfl

theorem mem_proof_length (nodes : List Hash) (index : Nat) :
    ∀ sibling ∈ proof ledger nodes index, sibling.length = merkleProofEntrySize := by
  unfold proof
  induction nodes, index using Merkle.proof.induct proofEntry (joinEntries ledger) with
  | case1 nodes index many ih =>
      rw [Merkle.proof_of_many proofEntry (joinEntries ledger) nodes index many]
      intro sibling member
      rcases List.mem_cons.mp member with rfl | above
      · exact length_proofEntry _
      · exact ih sibling above
  | case2 nodes index few =>
      rw [Merkle.proof, dif_neg few]
      intro sibling member
      cases member

theorem length_flatten_proof (nodes : List Hash) (index : Nat) :
    (proof ledger nodes index).flatten.length =
      Nat.clog 2 nodes.length * merkleProofEntrySize := by
  rw [List.length_flatten, List.map_congr_left (mem_proof_length ledger nodes index),
    List.map_const', List.sum_replicate, length_proof, smul_eq_mul]

/-- The tree ends, a leaf's proof is as long as the tree is high and folds to its last node, and
past the leaves there is no proof. -/
theorem tree_and_proof_agree (nodes : List Hash) :
    (∀ extra, growMerkleTree ledger (nodes.length + extra) nodes nodes.length =
        makeMerkleTree ledger nodes) ∧
      (∀ index leaf, nodes[index]? = some leaf →
        ∃ siblings, makeMerkleProof index nodes.length (makeMerkleTree ledger nodes) =
            some siblings ∧
          siblings.length = Nat.clog 2 nodes.length ∧
          (makeMerkleTree ledger nodes).getLast? =
            some (Merkle.climb proofEntry (joinEntries ledger) leaf index siblings)) ∧
      ∀ index, nodes.length ≤ index →
        makeMerkleProof index nodes.length (makeMerkleTree ledger nodes) = none := by
  refine ⟨?_, ?_, ?_⟩
  · intro extra
    have grown := growMerkleTree_eq ledger (nodes.length + extra) [] nodes (Nat.le_add_right _ _)
    rw [List.nil_append, List.nil_append] at grown
    rw [grown, makeMerkleTree_eq]
  · intro index leaf found
    have inside : index < nodes.length := (List.getElem?_eq_some_iff.mp found).1
    refine ⟨proof ledger nodes index, makeMerkleProof_eq ledger nodes index inside,
      length_proof ledger nodes index, ?_⟩
    have top : (levels ledger nodes).flatten.getLast? = root ledger nodes :=
      Merkle.getLast?_levels proofEntry (joinEntries ledger) nodes
    rw [makeMerkleTree_eq, top]
    exact Merkle.climb_proof proofEntry (joinEntries ledger) nodes index leaf found
  · intro index outside
    exact if_pos outside

end Helios.MerkleTree
