import Aequora.Base.KeyOrder
import Aequora.Base.SourceOrder

/-! Topological ordering by removal of sources. A table counts, for every node, the edges into it
that are not used up. Every node is removed exactly when the nodes have an order in which each comes
after its sources. -/

namespace Aequora.Base

open Std List

universe u

section Edges
variable {Node : Type u} [DecidableEq Node] (outgoing : Node → List Node)

/-- The targets of all edges that leave nodes not yet placed. -/
def unusedEdges (nodes placed : List Node) : List Node :=
  (nodes.filter fun node => decide (node ∉ placed)).flatMap outgoing

/-- Every node comes after all nodes with an edge to it. -/
def SourcesFirst (nodes placed : List Node) : Prop :=
  ∀ before node after, placed = before ++ node :: after →
    ∀ source ∈ nodes, node ∈ outgoing source → source ∈ before

theorem count_owed (unused owed : List Node) (node other : Node) :
    (unused ++ node :: owed).count other =
      (unused ++ owed).count other + if node = other then 1 else 0 := by
  rw [count_append, count_append, count_cons, Nat.add_assoc]
  simp

variable {outgoing}

theorem unusedEdges_snoc (distinct : nodes.Nodup) (inside : node ∈ nodes) (fresh : node ∉ placed) :
    (unusedEdges outgoing nodes placed).Perm
      (unusedEdges outgoing nodes (placed ++ [node]) ++ outgoing node) := by
  have without : (nodes.filter fun other => decide (other ∉ placed ++ [node])) =
      (nodes.filter fun other => decide (other ∉ placed)).erase node := by
    rw [(distinct.filter _).erase_eq_filter, filter_filter]
    refine filter_congr fun other _ => ?_
    rw [Bool.eq_iff_iff]
    simp [and_comm]
  have member : node ∈ nodes.filter fun other => decide (other ∉ placed) := by
    simp [inside, fresh]
  unfold unusedEdges
  rw [without]
  refine ((perm_cons_erase member).flatMap_right outgoing).trans ?_
  rw [flatMap_cons]
  exact perm_append_comm

theorem mem_unusedEdges : node ∈ unusedEdges outgoing nodes placed ↔
    ∃ source ∈ nodes, source ∉ placed ∧ node ∈ outgoing source := by
  simp only [unusedEdges, mem_flatMap, mem_filter, decide_eq_true_eq, and_assoc]

theorem SourcesFirst.snoc (earlier : SourcesFirst outgoing nodes placed)
    (free : node ∉ unusedEdges outgoing nodes placed) : SourcesFirst outgoing nodes (placed ++ [node]) := by
  refine SourcesBefore.snoc earlier fun source inside edge => ?_
  by_contra missing
  exact free (mem_unusedEdges.mpr ⟨source, inside, missing, edge⟩)

end Edges

/-- The unused incoming edges of each node, the nodes without any, and the nodes removed so far. -/
structure Removal (Node : Type u) [Ord Node] where
  indegree : ExtTreeMap Node Nat
  ready : ExtTreeSet Node
  visited : List Node

namespace Removal
variable {Node : Type u} [Ord Node] [TransOrd Node]

/-- Use up one edge into the node. -/
def release (state : Removal Node) (node : Node) : Removal Node :=
  match state.indegree[node]? with
  | none => state
  | some degree =>
    { state with
      indegree := state.indegree.insert node (degree - 1)
      ready := if degree - 1 = 0 then state.ready.insert node else state.ready }

variable (outgoing : Node → List Node)

/-- Remove a ready node and use up its outgoing edges. -/
def visit (state : Removal Node) (node : Node) : Removal Node :=
  (outgoing node).foldl release
    { state with ready := state.ready.erase node, visited := state.visited ++ [node] }

/-- Remove the least ready node while there is one. -/
def drain : Nat → Removal Node → Removal Node
  | 0, state => state
  | fuel + 1, state =>
    match state.ready.toList with
    | [] => state
    | node :: _ => drain fuel (state.visit outgoing node)

variable [DecidableEq Node]

/-- The invariant while the edges to `owed` are being used up: in-degrees count the unused edges
and the nodes without any are exactly those removed or ready. -/
structure Valid (nodes : List Node) (state : Removal Node) (owed : List Node) : Prop where
  distinct : state.visited.Nodup
  known : ∀ node ∈ state.visited, node ∈ nodes
  waiting : ∀ node ∈ state.ready, node ∈ nodes ∧ node ∉ state.visited
  counts : ∀ node, state.indegree[node]? = if node ∈ nodes then
    some ((unusedEdges outgoing nodes state.visited ++ owed).count node) else none
  queued : ∀ node ∈ nodes, (unusedEdges outgoing nodes state.visited ++ owed).count node = 0 ↔
    node ∈ state.visited ∨ node ∈ state.ready
  sources : SourcesFirst outgoing nodes state.visited

variable {outgoing} {nodes : List Node} {state : Removal Node}

/-- Before any removal the ready nodes are those without incoming edges. -/
theorem Valid.initial {indegree : ExtTreeMap Node Nat} {ready : ExtTreeSet Node} (counts : ∀ node, indegree[node]? =
      if node ∈ nodes then some ((nodes.flatMap outgoing).count node) else none)
    (opened : ∀ node, node ∈ ready ↔ indegree[node]? = some 0) :
    Valid outgoing nodes { indegree, ready, visited := [] } [] := by
  have all : unusedEdges outgoing nodes [] ++ [] = nodes.flatMap outgoing := by
    simp [unusedEdges]
  constructor
  · exact nodup_nil
  · simp
  · intro node member
    have zero := (opened node).mp member
    rw [counts] at zero
    by_cases inside : node ∈ nodes
    · exact ⟨inside, not_mem_nil⟩
    · rw [if_neg inside] at zero
      cases zero
  · intro node
    rw [all]
    exact counts node
  · intro node inside
    rw [all, opened, counts, if_pos inside]
    simp
  · intro _ _ _ split
    simp at split

omit [DecidableEq Node] in
theorem visited_releases (owed : List Node) (state : Removal Node) :
    (owed.foldl Removal.release state).visited = state.visited := by
  induction owed generalizing state with
  | nil => rfl
  | cons _ _ ih =>
    rw [foldl_cons, ih, release]
    split <;> rfl

omit [DecidableEq Node] in
theorem visited_visit (state : Removal Node) (node : Node) :
    (state.visit outgoing node).visited = state.visited ++ [node] :=
  visited_releases _ _

theorem Valid.visited_subperm (valid : Valid outgoing nodes state owed) : state.visited.Subperm nodes :=
  subperm_of_subset valid.distinct valid.known

theorem Valid.complete_iff (unique : nodes.Nodup) (valid : Valid outgoing nodes state [])
    (drained : state.ready = ∅) : state.visited.length = nodes.length ↔
      ∃ order, order.Perm nodes ∧ SourcesFirst outgoing nodes order := by
  constructor
  · intro complete
    exact ⟨state.visited, valid.visited_subperm.perm_of_length_le (Nat.le_of_eq complete.symm), valid.sources⟩
  · rintro ⟨order, same, ordered⟩
    have acyclic := (exists_order_iff_acyclic unique).mp ⟨order, same, ordered⟩
    -- A node whose sources were all removed was ready at some time, and so was removed itself.
    have all : ∀ node ∈ nodes, node ∈ state.visited := by
      refine mem_of_acyclic acyclic fun node inside sources => ?_
      have unused : (unusedEdges outgoing nodes state.visited ++ []).count node = 0 := by
        rw [append_nil, count_eq_zero, mem_unusedEdges]
        rintro ⟨source, known, missing, edge⟩
        exact missing (sources source known edge)
      rcases (valid.queued node inside).mp unused with done | ready
      · exact done
      · rw [drained] at ready
        exact absurd ready ExtTreeSet.not_mem_empty
    exact Nat.le_antisymm valid.visited_subperm.length_le (subperm_of_subset unique all).length_le

variable [LawfulEqOrd Node]

theorem Valid.release (valid : Valid outgoing nodes state (node :: owed)) :
    Valid outgoing nodes (state.release node) owed := by
  obtain ⟨distinct, known, waiting, counts, queued, sources⟩ := valid
  simp only [count_owed] at counts queued
  by_cases inside : node ∈ nodes
  · have degree := counts node
    rw [if_pos inside, if_pos rfl] at degree
    -- The node has an unused edge, so it was not removed and is not ready.
    have fresh : ¬(node ∈ state.visited ∨ node ∈ state.ready) := by
      rw [← queued node inside, if_pos rfl]
      exact Nat.succ_ne_zero _
    simp only [Removal.release, degree, Nat.add_sub_cancel]
    have member (other : Node) :
        other ∈ (if (unusedEdges outgoing nodes state.visited ++ owed).count node = 0 then
          state.ready.insert node else state.ready) ↔
        other ∈ state.ready ∨
          other = node ∧ (unusedEdges outgoing nodes state.visited ++ owed).count node = 0 := by
      by_cases last : (unusedEdges outgoing nodes state.visited ++ owed).count node = 0
      · rw [if_pos last, ExtTreeSet.mem_insert, LawfulEqOrd.compare_eq_iff_eq, or_comm, eq_comm]
        simp only [last, and_true]
      · rw [if_neg last]
        simp only [last, and_false, or_false]
    refine ⟨distinct, known, ?_, ?_, ?_, sources⟩
    · intro other queuedOther
      rcases (member other).mp queuedOther with before | ⟨rfl, -⟩
      · exact waiting other before
      · exact ⟨inside, fun removed => fresh (.inl removed)⟩
    · intro other
      rw [lookup_insert]
      by_cases same : node = other
      · subst other
        rw [if_pos rfl, if_pos inside]
      · rw [if_neg same, counts, if_neg same, Nat.add_zero]
    · intro other below
      rw [member]
      by_cases same : node = other
      · subst other
        have apart : node ∉ state.visited ∧ node ∉ state.ready := not_or.mp fresh
        simp [apart]
      · have before := queued other below
        rw [if_neg same, Nat.add_zero] at before
        rw [before]
        simp [Ne.symm same]
  · have degree := counts node
    rw [if_neg inside] at degree
    have unchanged : state.release node = state := by
      simp only [Removal.release, degree]
    have apart {other : Node} (below : other ∈ nodes) : node ≠ other :=
      fun same => inside (same ▸ below)
    rw [unchanged]
    refine ⟨distinct, known, waiting, ?_, ?_, sources⟩
    · intro other
      rw [counts]
      by_cases below : other ∈ nodes
      · rw [if_pos below, if_pos below, if_neg (apart below), Nat.add_zero]
      · rw [if_neg below, if_neg below]
    · intro other below
      rw [← queued other below, if_neg (apart below), Nat.add_zero]

theorem Valid.releases (valid : Valid outgoing nodes state owed) :
    Valid outgoing nodes (owed.foldl Removal.release state) [] := by
  induction owed generalizing state with
  | nil => exact valid
  | cons _ _ ih => exact ih valid.release

variable (unique : nodes.Nodup) (valid : Valid outgoing nodes state [])
include unique valid

theorem Valid.visit (ready : node ∈ state.ready) : Valid outgoing nodes (state.visit outgoing node) [] := by
  obtain ⟨inside, fresh⟩ := valid.waiting node ready
  have moved (other : Node) : (unusedEdges outgoing nodes state.visited ++ []).count other =
      (unusedEdges outgoing nodes (state.visited ++ [node]) ++ outgoing node).count other := by
    rw [append_nil]
    exact (unusedEdges_snoc unique inside fresh).count_eq other
  have unused : node ∉ unusedEdges outgoing nodes state.visited := by
    have zero := (valid.queued node inside).mpr (.inr ready)
    rwa [append_nil, count_eq_zero] at zero
  refine Valid.releases ⟨?_, ?_, ?_, ?_, ?_, valid.sources.snoc unused⟩
  · rw [← concat_eq_append]
    exact valid.distinct.concat fresh
  · intro other member
    rcases mem_append.mp member with earlier | last
    · exact valid.known other earlier
    · rwa [mem_singleton.mp last]
  · intro other member
    obtain ⟨different, member⟩ := ExtTreeSet.mem_erase.mp member
    obtain ⟨below, earlier⟩ := valid.waiting other member
    refine ⟨below, fun removed => ?_⟩
    rcases mem_append.mp removed with before | last
    · exact earlier before
    · exact different (by rw [mem_singleton.mp last, ReflOrd.compare_self])
  · intro other
    rw [← moved]
    exact valid.counts other
  · intro other below
    rw [← moved, valid.queued other below, ExtTreeSet.mem_erase, mem_append, mem_singleton]
    by_cases same : other = node
    · subst other
      simp [ready]
    · simp [same, Ne.symm same]

theorem Valid.drain (fuel : Nat) (enough : nodes.length < state.visited.length + fuel) :
    Valid outgoing nodes (drain outgoing fuel state) [] ∧ (Removal.drain outgoing fuel state).ready = ∅ := by
  induction fuel generalizing state with
  | zero =>
    have placed := valid.visited_subperm.length_le
    omega
  | succ _ ih =>
    rw [Removal.drain]
    split
    · rename_i none
      refine ⟨valid, ?_⟩
      rw [← ExtTreeSet.isEmpty_iff, ← ExtTreeSet.isEmpty_toList, none]
      rfl
    · rename_i node rest listed
      have ready : node ∈ state.ready := by
        rw [← ExtTreeSet.mem_toList, listed]
        exact mem_cons_self
      apply ih (valid.visit unique ready)
      rw [visited_visit, length_append, length_singleton]
      omega

end Removal

/-- The number of edges into each node and the nodes that each node has an edge to. -/
structure EdgeTable (Node : Type u) [Ord Node] where
  indegree : ExtTreeMap Node Nat
  dependents : ExtTreeMap Node (List Node)

namespace EdgeTable
variable {Node : Type u} [Ord Node] [TransOrd Node]

section
variable (table : EdgeTable Node)

def outgoing (node : Node) : List Node := (table.dependents[node]?).getD []

/-- Add an edge, if its source is one of the counted nodes. -/
def connect (source target : Node) : EdgeTable Node :=
  if source ∈ table.indegree then
    { indegree := table.indegree.modify target (· + 1)
      dependents := table.dependents.insert source (table.outgoing source ++ [target]) }
  else table

def sources : Removal Node where
  indegree := table.indegree
  ready := ExtTreeSet.ofList (table.indegree.toList.filterMap fun (node, degree) =>
    if degree = 0 then some node else none)
  visited := []

/-- Remove sources for as long as there are any. -/
def drained : Removal Node :=
  table.sources.drain table.outgoing (table.indegree.size + 1)

end

variable [DecidableEq Node]

/-- The in-degrees of the nodes count the edges among them. -/
def Counted (nodes : List Node) (table : EdgeTable Node) : Prop :=
  ∀ node, table.indegree[node]? =
    if node ∈ nodes then some ((nodes.flatMap table.outgoing).count node) else none

variable {nodes : List Node} {table : EdgeTable Node}

theorem Counted.mem_iff (counted : table.Counted nodes) : node ∈ table.indegree ↔ node ∈ nodes := by
  rw [ExtTreeMap.mem_iff_isSome_getElem?, counted]
  split <;> simp [*]

variable [LawfulEqOrd Node]

theorem outgoing_connect (inside : source ∈ table.indegree) (node : Node) :
    (table.connect source target).outgoing node =
      if source = node then table.outgoing source ++ [target] else table.outgoing node := by
  rw [connect, if_pos inside]
  simp only [outgoing, lookup_insert]
  by_cases same : source = node
  · simp [same]
  · simp [same]

theorem count_flatMap_connect (unique : nodes.Nodup) (inside : source ∈ table.indegree) (node : Node) :
    (nodes.flatMap (table.connect source target).outgoing).count node =
      (nodes.flatMap table.outgoing).count node + if source ∈ nodes ∧ target = node then 1 else 0 := by
  induction nodes with
  | nil => simp
  | cons first _ ih =>
    obtain ⟨apart, unique⟩ := nodup_cons.mp unique
    rw [flatMap_cons, flatMap_cons, count_append, count_append, ih unique, outgoing_connect inside]
    by_cases same : source = first
    · subst first
      simp only [if_true, apart, false_and, if_false, Nat.add_zero, mem_cons, true_or, true_and,
        count_append, count_singleton, beq_iff_eq]
      omega
    · rw [if_neg same, Nat.add_assoc]
      simp only [mem_cons, same, false_or]

theorem Counted.connect (unique : nodes.Nodup) (counted : table.Counted nodes) (source target : Node) :
    (table.connect source target).Counted nodes := by
  by_cases inside : source ∈ table.indegree
  · intro node
    have listed := counted.mem_iff.mp inside
    rw [count_flatMap_connect unique inside, EdgeTable.connect, if_pos inside, ExtTreeMap.getElem?_modify, counted,
      counted]
    by_cases same : target = node
    · subst node
      simp only [ReflOrd.compare_self, if_true, listed, true_and]
      split <;> rfl
    · simp only [LawfulEqOrd.compare_eq_iff_eq, same, if_false, and_false, Nat.add_zero]
  · rwa [EdgeTable.connect, if_neg inside]

theorem mem_outgoing_connect : other ∈ (table.connect source target).outgoing node ↔
    other ∈ table.outgoing node ∨ source ∈ table.indegree ∧ source = node ∧ other = target := by
  by_cases inside : source ∈ table.indegree
  · rw [outgoing_connect inside]
    by_cases same : source = node
    · subst node
      simp [inside]
    · simp [same]
  · rw [connect, if_neg inside]
    simp [inside]

/-- Add edges, each given with its source first. -/
def connectAll (table : EdgeTable Node) (edges : List (Node × Node)) : EdgeTable Node :=
  edges.foldl (fun built edge => built.connect edge.1 edge.2) table

variable (unique : nodes.Nodup) (counted : table.Counted nodes)
include unique counted

theorem Counted.connectAll (edges : List (Node × Node)) : (table.connectAll edges).Counted nodes := by
  induction edges generalizing table with
  | nil => exact counted
  | cons edge _ ih => exact ih (counted.connect unique edge.1 edge.2)

theorem mem_outgoing_connectAll : other ∈ (table.connectAll edges).outgoing node ↔
      other ∈ table.outgoing node ∨ node ∈ nodes ∧ (node, other) ∈ edges := by
  induction edges generalizing table with
  | nil => simp [connectAll]
  | cons edge _ ih =>
    have next := ih (counted.connect unique edge.1 edge.2)
    rw [mem_outgoing_connect, counted.mem_iff, or_assoc] at next
    refine next.trans (or_congr_right ?_)
    constructor
    · rintro (⟨inside, rfl, rfl⟩ | ⟨inside, later⟩)
      · exact ⟨inside, mem_cons_self⟩
      · exact ⟨inside, mem_cons_of_mem _ later⟩
    · rintro ⟨inside, member⟩
      rcases mem_cons.mp member with rfl | later
      · exact .inl ⟨inside, rfl, rfl⟩
      · exact .inr ⟨inside, later⟩

theorem Counted.drained_iff : table.drained.visited.length = table.indegree.size ↔
      ∃ order, order.Perm nodes ∧ SourcesFirst table.outgoing nodes order := by
  have same : table.indegree.keys.Perm nodes := by
    rw [perm_ext_iff_of_nodup ExtTreeMap.nodup_keys unique]
    intro node
    rw [ExtTreeMap.mem_keys, counted.mem_iff]
  have size : table.indegree.size = nodes.length := by
    rw [← ExtTreeMap.length_keys, same.length_eq]
  have valid : table.sources.Valid table.outgoing nodes [] := by
    refine Removal.Valid.initial counted fun node => ?_
    rw [ExtTreeSet.mem_ofList, contains_iff_mem, mem_filterMap]
    simp only [Prod.exists, ExtTreeMap.mem_toList_iff_getElem?_eq_some]
    constructor
    · rintro ⟨_, degree, stored, zero⟩
      split at zero
      · cases zero
        rwa [← ‹degree = 0›]
      · cases zero
    · intro stored
      exact ⟨node, 0, stored, rfl⟩
  obtain ⟨ended, none⟩ := valid.drain unique (table.indegree.size + 1) (by
    rw [size]
    exact Nat.lt_add_left _ (Nat.lt_succ_self _))
  rw [size]
  exact ended.complete_iff unique none

end EdgeTable

end Aequora.Base
