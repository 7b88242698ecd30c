import Mathlib.Data.List.Perm.Basic
import Mathlib.Logic.Relation
import Mathlib.Tactic

/-! Directed graphs stored as two growing vectors, of node labels and of edges
between node positions. Parallel edges are allowed and nothing is removed. -/

namespace Helios

structure DiEdge (E : Type) where
  source : Nat
  target : Nat
  weight : E
  deriving DecidableEq

/-- The same edge with its weight changed. -/
def DiEdge.mapWeight {E : Type} (change : E → E) (edge : DiEdge E) : DiEdge E :=
  { edge with weight := change edge.weight }

@[ext] structure DiGraph (N E : Type) where
  nodes : List N
  edges : List (DiEdge E)
  deriving DecidableEq

namespace DiGraph

variable {N E K : Type}

def empty : DiGraph N E := ⟨[], []⟩

def addNode (graph : DiGraph N E) (label : N) : DiGraph N E × Nat :=
  ({ graph with nodes := graph.nodes ++ [label] }, graph.nodes.length)

def addEdge (graph : DiGraph N E) (source target : Nat) (weight : E) : DiGraph N E :=
  { graph with edges := graph.edges ++ [⟨source, target, weight⟩] }

def edgeCount (graph : DiGraph N E) : Nat := graph.edges.length

def weights (graph : DiGraph N E) : List E := graph.edges.map DiEdge.weight

/-- Change the weight of an edge, if there is one at the index. -/
def edgeWeightMut (graph : DiGraph N E) (index : Nat) (change : E → E) : DiGraph N E :=
  { graph with edges := graph.edges.modify index (DiEdge.mapWeight change) }

/-- The edges with the labels of their ends in place of positions. -/
def labelled (graph : DiGraph N E) : List (Option N × Option N × E) :=
  graph.edges.map (fun edge =>
    (graph.nodes[edge.source]?, graph.nodes[edge.target]?, edge.weight))

/-- One graph up to the numbering of nodes and edges. -/
def SameGraph (left right : DiGraph N E) : Prop :=
  left.nodes.Perm right.nodes ∧ left.labelled.Perm right.labelled

instance [DecidableEq N] [DecidableEq E] (left right : DiGraph N E) :
    Decidable (left.SameGraph right) :=
  inferInstanceAs (Decidable (_ ∧ _))

def Links (graph : DiGraph N E) (source target : N) (weight : E) : Prop :=
  (some source, some target, weight) ∈ graph.labelled

theorem sameGraph_links (left right : DiGraph N E) (same : left.SameGraph right)
    (source target : N) (weight : E) :
    left.Links source target weight ↔ right.Links source target weight :=
  same.2.mem_iff

theorem getElem?_addNode (graph : DiGraph N E) (label : N) (place : Nat) :
    (graph.addNode label).1.nodes[place]? =
      if place = graph.nodes.length then some label else graph.nodes[place]? := by
  rw [addNode]
  rcases Nat.lt_trichotomy place graph.nodes.length with early | same | late
  · rw [List.getElem?_append_left early, if_neg (Nat.ne_of_lt early)]
  · simp [same]
  · rw [List.getElem?_append_right (Nat.le_of_lt late), if_neg (Nat.ne_of_gt late),
      List.getElem?_eq_none (Nat.le_of_lt late), List.getElem?_eq_none]
    rw [List.length_singleton]
    omega

/-- Each edge runs between the nodes that its weight names. -/
def Named (source target : E → N) (graph : DiGraph N E) : Prop :=
  ∀ edge ∈ graph.edges, graph.nodes[edge.source]? = some (source edge.weight) ∧
    graph.nodes[edge.target]? = some (target edge.weight)

section Named

variable (source target : E → N)

theorem named_empty : (empty : DiGraph N E).Named source target := by
  intro edge member
  cases member

theorem named_addNode (graph : DiGraph N E) (label : N) (named : graph.Named source target) :
    (graph.addNode label).1.Named source target := by
  have grown : ∀ (place : Nat) (other : N), graph.nodes[place]? = some other →
      (graph.addNode label).1.nodes[place]? = some other := by
    intro place other found
    have early := (List.getElem?_eq_some_iff.mp found).1
    rw [getElem?_addNode, if_neg (Nat.ne_of_lt early)]
    exact found
  intro edge member
  rcases named edge member with ⟨here, there⟩
  exact ⟨grown _ _ here, grown _ _ there⟩

theorem named_addEdge (graph : DiGraph N E) (first second : Nat) (weight : E)
    (named : graph.Named source target) (here : graph.nodes[first]? = some (source weight))
    (there : graph.nodes[second]? = some (target weight)) :
    (graph.addEdge first second weight).Named source target := by
  intro edge member
  rcases List.mem_append.mp member with old | fresh
  · exact named edge old
  · rw [List.mem_singleton.mp fresh]
    exact ⟨here, there⟩

theorem labelled_of_named (graph : DiGraph N E) (named : graph.Named source target) :
    graph.labelled =
      graph.weights.map (fun weight => (some (source weight), some (target weight), weight)) := by
  rw [labelled, weights, List.map_map]
  apply List.map_congr_left
  intro edge member
  rcases named edge member with ⟨here, there⟩
  rw [here, there]
  rfl

theorem labelled_perm_iff (left right : DiGraph N E) (namedLeft : left.Named source target)
    (namedRight : right.Named source target) :
    left.labelled.Perm right.labelled ↔ left.weights.Perm right.weights := by
  rw [labelled_of_named source target left namedLeft,
    labelled_of_named source target right namedRight]
  apply List.map_perm_map_iff
  intro first second same
  exact congrArg (fun ends => ends.2.2) same

end Named

/-! Changes of weights in place. -/

/-- Change every weight. -/
def mapWeights (graph : DiGraph N E) (change : E → E) : DiGraph N E :=
  { graph with edges := graph.edges.map (DiEdge.mapWeight change) }

@[simp] theorem weights_mapWeights (graph : DiGraph N E) (change : E → E) :
    (graph.mapWeights change).weights = graph.weights.map change := by
  simp [mapWeights, weights, DiEdge.mapWeight, Function.comp_def]

theorem mapWeights_id (graph : DiGraph N E) : graph.mapWeights (fun weight => weight) = graph := by
  apply DiGraph.ext
  · rfl
  · exact List.map_id graph.edges

theorem mapWeights_mapWeights (graph : DiGraph N E) (first second : E → E) :
    (graph.mapWeights first).mapWeights second =
      graph.mapWeights (fun weight => second (first weight)) := by
  apply DiGraph.ext
  · rfl
  · exact List.map_map

theorem getElem?_edgeWeightMut (graph : DiGraph N E) (index place : Nat) (change : E → E) :
    (graph.edgeWeightMut index change).edges[place]? =
      (graph.edges[place]?).map (fun edge =>
        if index = place then edge.mapWeight change else edge) := by
  rw [edgeWeightMut, List.getElem?_modify]
  by_cases same : index = place
  · simp [same]
  · simp [same]

/-- Distinct indices are each changed once. -/
theorem getElem?_foldl_edgeWeightMut (indices : List Nat) (distinct : indices.Nodup)
    (graph : DiGraph N E) (place : Nat) (change : E → E) :
    (indices.foldl (fun graph index => graph.edgeWeightMut index change) graph).edges[place]? =
      (graph.edges[place]?).map (fun edge =>
        if place ∈ indices then edge.mapWeight change else edge) := by
  induction indices generalizing graph with
  | nil => simp
  | cons index rest ih =>
      rcases List.nodup_cons.mp distinct with ⟨fresh, others⟩
      rw [List.foldl_cons, ih others, getElem?_edgeWeightMut, Option.map_map]
      apply Option.map_congr
      intro edge _
      by_cases same : index = place
      · subst same
        simp [fresh]
      · simp [same, Ne.symm same]

theorem nodes_foldl_edgeWeightMut (indices : List Nat) (graph : DiGraph N E) (change : E → E) :
    (indices.foldl (fun graph index => graph.edgeWeightMut index change) graph).nodes =
      graph.nodes := by
  induction indices generalizing graph with
  | nil => rfl
  | cons index rest ih =>
      rw [List.foldl_cons, ih]
      rfl

/-! An index of the edges by a key of their weights. -/

/-- The positions of the edges whose weight has the key, each once. -/
structure Tracks (keyOf : E → K) (graph : DiGraph N E) (key : K) (indices : List Nat) : Prop where
  distinct : indices.Nodup
  exact : ∀ place, place ∈ indices ↔
    ∃ edge, graph.edges[place]? = some edge ∧ keyOf edge.weight = key

section Tracks

variable (keyOf : E → K)

/-- A change at the tracked positions is a change of the weights with that key. -/
theorem foldl_tracked [DecidableEq K] (graph : DiGraph N E) (key : K) (indices : List Nat)
    (tracks : graph.Tracks keyOf key indices) (change : E → E) :
    indices.foldl (fun graph index => graph.edgeWeightMut index change) graph =
      graph.mapWeights (fun weight => if keyOf weight = key then change weight else weight) := by
  apply DiGraph.ext
  · exact nodes_foldl_edgeWeightMut indices graph change
  · apply List.ext_getElem?
    intro place
    rw [getElem?_foldl_edgeWeightMut indices tracks.distinct, mapWeights, List.getElem?_map]
    apply Option.map_congr
    intro edge found
    have inside : place ∈ indices ↔ keyOf edge.weight = key := by
      rw [tracks.exact]
      constructor
      · intro ⟨other, foundOther, keyed⟩
        rw [found] at foundOther
        cases foundOther
        exact keyed
      · exact fun keyed => ⟨edge, found, keyed⟩
    by_cases keyed : keyOf edge.weight = key
    · rw [if_pos (inside.mpr keyed), DiEdge.mapWeight, DiEdge.mapWeight, if_pos keyed]
    · rw [if_neg (fun member => keyed (inside.mp member)), DiEdge.mapWeight, if_neg keyed]

theorem tracks_mapWeights (graph : DiGraph N E) (key : K) (indices : List Nat)
    (tracks : graph.Tracks keyOf key indices) (change : E → E)
    (keeps : ∀ weight, keyOf (change weight) = keyOf weight) :
    (graph.mapWeights change).Tracks keyOf key indices := by
  refine ⟨tracks.distinct, ?_⟩
  intro place
  rw [tracks.exact, mapWeights, List.getElem?_map]
  cases graph.edges[place]? with
  | none => simp
  | some edge => simp [DiEdge.mapWeight, keeps]

end Tracks

theorem named_mapWeights (source target : E → N) (graph : DiGraph N E) (change : E → E)
    (keepsSource : ∀ weight, source (change weight) = source weight)
    (keepsTarget : ∀ weight, target (change weight) = target weight)
    (named : graph.Named source target) : (graph.mapWeights change).Named source target := by
  intro edge member
  rcases List.mem_map.mp member with ⟨old, oldMember, rfl⟩
  rcases named old oldMember with ⟨here, there⟩
  exact ⟨here.trans (congrArg some (keepsSource _).symm),
    there.trans (congrArg some (keepsTarget _).symm)⟩

/-- Lists are permutations of each other if their classes under a key are. -/
theorem perm_iff_classes [DecidableEq E] [DecidableEq K] (keyOf : E → K) (left right : List E) :
    left.Perm right ↔ ∀ key, (left.filter (fun weight => decide (keyOf weight = key))).Perm
      (right.filter (fun weight => decide (keyOf weight = key))) := by
  constructor
  · exact fun perm key => perm.filter _
  · intro classes
    rw [List.perm_iff_count]
    intro weight
    have counted := (classes (keyOf weight)).count_eq weight
    rwa [List.count_filter (by simp), List.count_filter (by simp)] at counted

theorem forall₂_congr_left {A B : Type} (first second : A → B → Prop) (left : List A)
    (right : List B) (same : ∀ here ∈ left, ∀ there, first here there ↔ second here there) :
    List.Forall₂ first left right ↔ List.Forall₂ second left right := by
  induction left generalizing right with
  | nil => rw [List.forall₂_nil_left_iff, List.forall₂_nil_left_iff]
  | cons here rest ih =>
      rw [List.forall₂_cons_left_iff, List.forall₂_cons_left_iff]
      apply exists_congr
      intro there
      apply exists_congr
      intro others
      exact and_congr (same here List.mem_cons_self there) (and_congr
        (ih others (fun later member => same later (List.mem_cons_of_mem _ member))) Iff.rfl)

/-- Two lists have the same images if one can be reordered to match the other place by
place. -/
theorem map_perm_map_iff_forall₂ {A B C : Type} (f : A → C) (g : B → C) (left : List A)
    (right : List B) : (left.map f).Perm (right.map g) ↔
      ∃ reordered, reordered.Perm left ∧
        List.Forall₂ (fun first second => f first = g second) reordered right := by
  constructor
  · intro perm
    have images : List.Forall₂ (fun first image => f first = image) left (left.map f) := by
      rw [List.forall₂_map_right_iff, List.forall₂_same]
      exact fun first _ => rfl
    have moved : Relation.Comp (List.Forall₂ (fun first image => f first = image)) List.Perm
        left (right.map g) := ⟨left.map f, images, perm⟩
    rw [List.forall₂_comp_perm_eq_perm_comp_forall₂] at moved
    rcases moved with ⟨reordered, reorders, matched⟩
    exact ⟨reordered, reorders.symm, List.forall₂_map_right_iff.mp matched⟩
  · intro ⟨reordered, reorders, matched⟩
    have images : reordered.map f = right.map g := by
      apply List.forall₂_eq_eq_eq ▸ List.forall₂_map_left_iff.mpr _
      exact List.forall₂_map_right_iff.mpr matched
    rw [← images]
    exact (reorders.map f).symm

/-! Growth by new edges. -/

/-- The edges of a graph and some more, with the given weights. -/
def Extends (before after : DiGraph N E) (added : List E) : Prop :=
  ∃ more : List (DiEdge E), after.edges = before.edges ++ more ∧ more.map DiEdge.weight = added

theorem extends_refl (graph : DiGraph N E) : Extends graph graph [] :=
  ⟨[], (List.append_nil _).symm, rfl⟩

theorem extends_trans (first second third : DiGraph N E) (early late : List E)
    (begin : Extends first second early) (further : Extends second third late) :
    Extends first third (early ++ late) := by
  rcases begin with ⟨more, edges, added⟩
  rcases further with ⟨evenMore, laterEdges, laterAdded⟩
  refine ⟨more ++ evenMore, ?_, ?_⟩
  · rw [laterEdges, edges, List.append_assoc]
  · rw [List.map_append, added, laterAdded]

theorem weights_extends (before after : DiGraph N E) (added : List E)
    (extended : Extends before after added) : after.weights = before.weights ++ added := by
  rcases extended with ⟨more, edges, rfl⟩
  rw [weights, edges, List.map_append]
  rfl

theorem edgeCount_extends (before after : DiGraph N E) (added : List E)
    (extended : Extends before after added) :
    after.edgeCount = before.edgeCount + added.length := by
  rcases extended with ⟨more, edges, rfl⟩
  rw [edgeCount, edges, List.length_append, List.length_map]
  rfl

theorem tracks_extends_other (keyOf : E → K) (before after : DiGraph N E) (added : List E)
    (key : K) (indices : List Nat) (extended : Extends before after added)
    (others : ∀ weight ∈ added, keyOf weight ≠ key) (tracks : before.Tracks keyOf key indices) :
    after.Tracks keyOf key indices := by
  rcases extended with ⟨more, edges, rfl⟩
  refine ⟨tracks.distinct, ?_⟩
  intro place
  rw [tracks.exact, edges]
  constructor
  · intro ⟨edge, found, keyed⟩
    refine ⟨edge, ?_, keyed⟩
    rw [List.getElem?_append_left (List.getElem?_eq_some_iff.mp found).1]
    exact found
  · intro ⟨edge, found, keyed⟩
    rcases Nat.lt_or_ge place before.edges.length with early | late
    · rw [List.getElem?_append_left early] at found
      exact ⟨edge, found, keyed⟩
    · rw [List.getElem?_append_right late] at found
      have member := List.mem_map_of_mem (f := DiEdge.weight) (List.mem_of_getElem? found)
      exact absurd keyed (others _ member)

theorem tracks_extends_fresh (keyOf : E → K) (before after : DiGraph N E) (added : List E)
    (key : K) (extended : Extends before after added)
    (absent : ∀ weight ∈ before.weights, keyOf weight ≠ key)
    (keyed : ∀ weight ∈ added, keyOf weight = key) :
    after.Tracks keyOf key (List.range' before.edgeCount added.length) := by
  rcases extended with ⟨more, edges, rfl⟩
  refine ⟨List.nodup_range', ?_⟩
  intro place
  rw [List.mem_range'_1, List.length_map, edgeCount, edges]
  constructor
  · intro ⟨above, below⟩
    rw [List.getElem?_append_right above]
    have inside : place - before.edges.length < more.length := by omega
    refine ⟨more[place - before.edges.length], List.getElem?_eq_getElem inside, ?_⟩
    exact keyed _ (List.mem_map_of_mem (List.getElem_mem inside))
  · intro ⟨edge, found, same⟩
    have bound := (List.getElem?_eq_some_iff.mp found).1
    rw [List.length_append] at bound
    rcases Nat.lt_or_ge place before.edges.length with early | late
    · rw [List.getElem?_append_left early] at found
      have member : edge.weight ∈ before.weights :=
        List.mem_map_of_mem (List.mem_of_getElem? found)
      exact absurd same (absent _ member)
    · exact ⟨late, bound⟩

end DiGraph

end Helios
