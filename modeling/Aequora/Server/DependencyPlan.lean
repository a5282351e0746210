import Aequora.Base.LayeredOrder
import Aequora.Server.Admission

/-! The execution plan of a batch. Dependencies inside it are edges of a graph whose layers are
executed in order; those outside it stay prerequisites for the ledger. -/

namespace Aequora.Server

open Std Aequora.Base Aequora.Protocol List Layering

structure DependencyPlan where
  orderedIndices : List Nat
  groups : List (List Nat)
deriving DecidableEq

/-- The position of every operation, unless an identity repeats. -/
def positions : Nat → ExtTreeMap OperationId Nat → List OperationEnvelope →
    Except DependencyError (ExtTreeMap OperationId Nat)
  | _, table, [] => .ok table
  | index, table, operation :: rest =>
    if operation.operationId ∈ table then .error (.duplicate operation.operationId)
    else positions (index + 1) (table.insert operation.operationId index) rest

structure DependencyGraph where
  indegree : List Nat
  outgoing : List (List Nat)

namespace DependencyGraph

def empty (size : Nat) : DependencyGraph where
  indegree := replicate size 0
  outgoing := replicate size []

def addEdge (graph : DependencyGraph) (dependency dependent : Nat) : DependencyGraph where
  indegree := graph.indegree.modify dependent (· + 1)
  outgoing := graph.outgoing.modify dependency (· ++ [dependent])

/-- One edge for every dependency that has a position in the batch. -/
def addDependencies (table : ExtTreeMap OperationId Nat) (index : Nat)
    (graph : DependencyGraph) : List OperationId → DependencyGraph
  | [] => graph
  | dependency :: rest =>
    match table[dependency]? with
    | some position => addDependencies table index (graph.addEdge position index) rest
    | none => addDependencies table index graph rest

def addOperations (table : ExtTreeMap OperationId Nat) :
    Nat → DependencyGraph → List OperationEnvelope → DependencyGraph
  | _, graph, [] => graph
  | index, graph, operation :: rest =>
    addOperations table (index + 1)
      (graph.addDependencies table index operation.metadata.dependencies) rest

section
variable (graph : DependencyGraph)

def dependents (node : Nat) : List Nat :=
  graph.outgoing[node]?.getD []

/-- The layering before the first round. -/
def start (size : Nat) : Layering where
  indegree := graph.indegree
  ready := (range size).filter fun index => decide (graph.indegree[index]? = some 0)
  ordered := []
  groups := []

/-- Layer the graph; nodes that never become ready lie on a cycle. -/
def plan (size : Nat) : Except DependencyError DependencyPlan :=
  let layered := rounds graph.dependents (size + 1) (graph.start size)
  if layered.ordered.length ≠ size then .error .cycle
  else .ok { orderedIndices := layered.ordered, groups := layered.groups }

end

end DependencyGraph

def batchGraph (table : ExtTreeMap OperationId Nat) (operations : List OperationEnvelope) : DependencyGraph :=
  DependencyGraph.addOperations table 0 (.empty operations.length) operations

def planDependencies (operations : List OperationEnvelope) : Except DependencyError DependencyPlan :=
  match positions 0 ∅ operations with
  | .error error => .error error
  | .ok table => (batchGraph table operations).plan operations.length

variable {table : ExtTreeMap OperationId Nat}
  {graph : DependencyGraph}

theorem positions_bounded (built : positions index table operations = .ok result)
    (bounded : ∀ (id : OperationId) position, table[id]? = some position → position < index) :
    ∀ (id : OperationId) position, result[id]? = some position →
      position < index + operations.length := by
  induction operations generalizing index table with
  | nil =>
    cases built
    simpa using bounded
  | cons _ rest ih =>
    rw [positions] at built
    split at built
    · cases built
    · rw [length_cons, Nat.add_comm rest.length, ← Nat.add_assoc]
      refine ih built fun id position found => ?_
      rw [lookup_insert] at found
      split at found
      · exact Option.some.inj found ▸ Nat.lt_succ_self index
      · exact (bounded id position found).trans (Nat.lt_succ_self index)

theorem positions_distinct (built : positions index table operations = .ok result) :
    (operations.map OperationEnvelope.operationId).Nodup ∧
      ∀ operation ∈ operations, operation.operationId ∉ table := by
  induction operations generalizing index table with
  | nil => simp
  | cons _ _ ih =>
    rw [positions] at built
    split at built
    · cases built
    · rename_i fresh
      obtain ⟨distinct, absent⟩ := ih built
      constructor
      · rw [map_cons, nodup_cons]
        refine ⟨fun repeated => ?_, distinct⟩
        obtain ⟨other, member, same⟩ := mem_map.mp repeated
        exact absent other member (by simp [same])
      · rw [forall_mem_cons]
        refine ⟨fresh, fun other member held => absent other member ?_⟩
        simp [held]

/-- In-degrees count the edges. -/
structure DependencyGraph.Balanced (graph : DependencyGraph) (size : Nat) : Prop where
  indegree : graph.indegree.length = size
  outgoing : graph.outgoing.length = size
  counts : ∀ node < size, graph.indegree[node]? = some (graph.outgoing.flatten.count node)

theorem DependencyGraph.Balanced.empty (size : Nat) : (DependencyGraph.empty size).Balanced size where
  indegree := length_replicate
  outgoing := length_replicate
  counts node inside := by simp [DependencyGraph.empty, inside]

theorem count_flatten_modify {lists : List (List Nat)} (node : Nat) (inside : position < lists.length) :
    (lists.modify position (· ++ [added])).flatten.count node =
      lists.flatten.count node + if added = node then 1 else 0 := by
  induction lists generalizing position with
  | nil => cases inside
  | cons _ _ ih =>
    cases position with
    | zero =>
      simp [List.modify, List.count_cons]
      omega
    | succ _ =>
      have later := ih (Nat.lt_of_succ_lt_succ inside)
      simp only [modify_succ_cons, flatten_cons, count_append] at later ⊢
      omega

section
variable (balanced : graph.Balanced size)
include balanced

theorem DependencyGraph.Balanced.addEdge {position dependent : Nat} (inside : position < size) :
    (graph.addEdge position dependent).Balanced size where
  indegree := by rw [DependencyGraph.addEdge, length_modify]; exact balanced.indegree
  outgoing := by rw [DependencyGraph.addEdge, length_modify]; exact balanced.outgoing
  counts node below := by
    rw [DependencyGraph.addEdge, getElem?_modify, balanced.counts node below,
      count_flatten_modify node (balanced.outgoing.symm ▸ inside)]
    by_cases same : dependent = node <;> simp [same]

section
variable (bounded : ∀ (id : OperationId) position, table[id]? = some position → position < size)
include bounded

theorem DependencyGraph.Balanced.addDependencies (dependencies : List OperationId) :
    (graph.addDependencies table index dependencies).Balanced size := by
  induction dependencies generalizing graph with
  | nil => exact balanced
  | cons dependency _ ih =>
    rw [DependencyGraph.addDependencies]
    split
    · rename_i position found
      exact ih (balanced.addEdge (bounded dependency position found))
    · exact ih balanced

theorem DependencyGraph.Balanced.addOperations (operations : List OperationEnvelope) :
    (DependencyGraph.addOperations table index graph operations).Balanced size := by
  induction operations generalizing graph index with
  | nil => exact balanced
  | cons _ _ ih => exact ih (balanced.addDependencies bounded _)

end

theorem DependencyGraph.Balanced.start : Valid graph.dependents size (graph.start size) [] [] := by
  have edges : unplaced graph.dependents size [] ++ [] = graph.outgoing.flatten := by
    have listed : (range size).map graph.dependents = graph.outgoing := by
      apply ext_getElem?
      intro node
      by_cases inside : node < size
      · have present : node < graph.outgoing.length := balanced.outgoing.symm ▸ inside
        simp [dependents, inside, present]
      · have absent : graph.outgoing.length ≤ node := balanced.outgoing.symm ▸ Nat.le_of_not_lt inside
        simp [inside, absent]
    simp [unplaced, flatMap_def, listed]
  have ready : ∀ node, node ∈ (graph.start size).ready ↔ node < size ∧ graph.indegree[node]? = some 0 := by
    intro node
    simp [DependencyGraph.start]
  refine ⟨balanced.indegree, ?_, ?_, ?_, ?_, ?_⟩
  · simpa [DependencyGraph.start] using nodup_range.filter _
  · intro node member
    exact ((ready node).mp (by simpa [DependencyGraph.start] using member)).1
  · intro node inside
    rw [show (graph.start size).ordered = [] from rfl, edges]
    exact balanced.counts node inside
  · intro node inside
    rw [show (graph.start size).ordered = [] from rfl, edges, append_nil, nil_append, ready,
      balanced.counts node inside]
    simp [inside]
  · intro _ _ _ split
    simp [DependencyGraph.start] at split

theorem DependencyGraph.Balanced.exhausted : (rounds graph.dependents (size + 1) (graph.start size)).ready = [] :=
  balanced.start.rounds_ready (size + 1) (by simp [DependencyGraph.start])

/-- A plan places every node once, after all nodes it depends on. -/
theorem DependencyGraph.Balanced.plan_ordered {plan : DependencyPlan} (planned : graph.plan size = .ok plan) :
    plan.orderedIndices.Perm (range size) ∧
      ∀ before node after, plan.orderedIndices = before ++ node :: after →
        ∀ source < size, node ∈ graph.dependents source → source ∈ before := by
  have valid := balanced.start.rounds (size + 1)
  unfold DependencyGraph.plan at planned
  dsimp only at planned
  split at planned
  · cases planned
  · rename_i complete
    cases planned
    exact ⟨valid.perm (Decidable.not_not.mp complete), valid.sources⟩

end

theorem balanced_batchGraph (built : positions 0 ∅ operations = .ok table) :
    (batchGraph table operations).Balanced operations.length :=
  (DependencyGraph.Balanced.empty operations.length).addOperations
    (by simpa using positions_bounded built (by simp)) operations

theorem planDependencies_perm {plan : DependencyPlan} (planned : planDependencies operations = .ok plan) :
    plan.orderedIndices.Perm (range operations.length) ∧
      (operations.map OperationEnvelope.operationId).Nodup := by
  unfold planDependencies at planned
  cases built : positions 0 ∅ operations with
  | error _ =>
    rw [built] at planned
    cases planned
  | ok table =>
    rw [built] at planned
    exact ⟨((balanced_batchGraph built).plan_ordered planned).1, (positions_distinct built).1⟩

end Aequora.Server
