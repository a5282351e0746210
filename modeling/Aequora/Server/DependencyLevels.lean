import Aequora.Queue.CompactionPlan
import Aequora.Server.DependencyPlan

/-! What a dependency plan says about a batch. Planning fails on a repeated identity or a cycle and
otherwise numbers every operation by the longest chain of dependencies that ends at it. -/

namespace Aequora.Server

open Std Aequora.Base Aequora.Protocol DependencyGraph Queue List ExtTreeMap Relation

/-- The second operation of the batch depends on the first. -/
def DependsOn (operations : List OperationEnvelope) (dependency dependent : Nat) : Prop :=
  ∃ needed operation, operations[dependency]? = some needed ∧ operations[dependent]? = some operation ∧
    needed.operationId ∈ operation.metadata.dependencies

/-- The plan executes every operation once, after what it depends on, in ascending layers numbered
by the longest chain of dependencies. -/
structure DependencyPlan.Sound (operations : List OperationEnvelope) (plan : DependencyPlan) : Prop where
  complete : plan.orderedIndices.Perm (range operations.length)
  ordered : ∀ before dependent after, plan.orderedIndices = before ++ dependent :: after →
    ∀ dependency, DependsOn operations dependency dependent → dependency ∈ before
  joined : plan.groups.flatten = plan.orderedIndices
  ascending : ∀ group ∈ plan.groups, group.Pairwise (· < ·)
  ranked : ∀ level group, plan.groups[level]? = some group →
    ∀ index ∈ group, Rank (DependsOn operations) level index

section Graph
variable {table : ExtTreeMap OperationId Nat} {operations : List OperationEnvelope} {graph : DependencyGraph}

theorem positions_lookup (built : positions index known operations = .ok result) (id : OperationId) (position : Nat) :
    result[id]? = some position ↔ known[id]? = some position ∨
      ∃ offset operation, operations[offset]? = some operation ∧ operation.operationId = id ∧
        position = index + offset := by
  induction operations generalizing index known with
  | nil =>
    cases built
    simp
  | cons first _ ih =>
    rw [positions] at built
    split at built
    · cases built
    · rename_i fresh
      rw [ih built, lookup_insert]
      constructor
      · rintro (here | ⟨offset, operation, found, same, rfl⟩)
        · split at here
          · rename_i same
            exact .inr ⟨0, first, rfl, same, (Option.some.inj here).symm⟩
          · exact .inl here
        · exact .inr ⟨offset + 1, operation, found, same, by omega⟩
      · rintro (before | ⟨offset, operation, found, same, rfl⟩)
        · left
          rw [if_neg]
          · exact before
          · rintro rfl
            exact fresh (mem_iff_lookup.mpr ⟨position, before⟩)
        · cases offset with
          | zero =>
            cases found
            exact .inl (if_pos same)
          | succ offset => exact .inr ⟨offset, operation, found, same, by omega⟩

theorem mem_addEdge_dependents (inside : source < graph.outgoing.length) :
    other ∈ (graph.addEdge source target).dependents node ↔
      other ∈ graph.dependents node ∨ source = node ∧ other = target := by
  unfold dependents addEdge
  by_cases same : source = node
  · subst node
    simp [inside]
  · simp [same]

theorem addEdge_outgoing_length (graph : DependencyGraph) (source target : Nat) :
    (graph.addEdge source target).outgoing.length = graph.outgoing.length := by
  rw [addEdge, length_modify]

theorem addDependencies_outgoing_length (index : Nat) (graph : DependencyGraph) (dependencies : List OperationId) :
    (graph.addDependencies table index dependencies).outgoing.length = graph.outgoing.length := by
  induction dependencies generalizing graph with
  | nil => rfl
  | cons _ _ ih =>
    rw [addDependencies]
    split
    · rw [ih, addEdge_outgoing_length]
    · exact ih graph

section
variable
  (bounded : ∀ (id : OperationId) position, table[id]? = some position → position < graph.outgoing.length)
include bounded

theorem mem_addDependencies_dependents : other ∈ (graph.addDependencies table index dependencies).dependents node ↔
      other ∈ graph.dependents node ∨ other = index ∧ ∃ dependency ∈ dependencies, table[dependency]? = some node := by
  induction dependencies generalizing graph with
  | nil => simp [addDependencies]
  | cons dependency _ ih =>
    rw [addDependencies]
    cases found : table[dependency]? with
    | none =>
      rw [ih bounded]
      simp [found]
    | some position =>
      rw [ih (by rwa [addEdge_outgoing_length]), mem_addEdge_dependents (bounded dependency position found)]
      simp only [exists_mem_cons_iff, found, Option.some.injEq]
      tauto

theorem mem_addOperations_dependents : other ∈ (addOperations table index graph operations).dependents node ↔
      other ∈ graph.dependents node ∨ ∃ offset operation, operations[offset]? = some operation ∧
        other = index + offset ∧ ∃ dependency ∈ operation.metadata.dependencies, table[dependency]? = some node := by
  induction operations generalizing graph index with
  | nil => simp [addOperations]
  | cons first _ ih =>
    rw [addOperations, ih (by rwa [addDependencies_outgoing_length]),
      mem_addDependencies_dependents bounded, or_assoc]
    refine or_congr_right ?_
    constructor
    · rintro (⟨rfl, depends⟩ | ⟨offset, operation, found, rfl, depends⟩)
      · exact ⟨0, first, rfl, rfl, depends⟩
      · exact ⟨offset + 1, operation, found, by omega, depends⟩
    · rintro ⟨offset, operation, found, rfl, depends⟩
      cases offset with
      | zero =>
        cases found
        exact .inl ⟨rfl, depends⟩
      | succ offset => exact .inr ⟨offset, operation, found, by omega, depends⟩

end

theorem linked_batchGraph (built : positions 0 ∅ operations = .ok table) :
    Layering.Linked (batchGraph table operations).dependents operations.length = DependsOn operations := by
  have lookup (id : OperationId) (position : Nat) : table[id]? = some position ↔
      ∃ operation, operations[position]? = some operation ∧ operation.operationId = id := by
    rw [positions_lookup built]
    simp
  have bounded : ∀ (id : OperationId) position, table[id]? = some position →
      position < (DependencyGraph.empty operations.length).outgoing.length := by
    intro id position found
    obtain ⟨operation, present, -⟩ := (lookup id position).mp found
    simpa [DependencyGraph.empty] using (List.getElem?_eq_some_iff.mp present).1
  funext source dependent
  rw [eq_iff_iff, Layering.Linked, Among, batchGraph, mem_addOperations_dependents bounded]
  have none : dependent ∉ (DependencyGraph.empty operations.length).dependents source := by
    simp [dependents, DependencyGraph.empty, List.getElem?_replicate]
    split <;> simp
  constructor
  · rintro ⟨-, -, impossible | ⟨_, operation, found, rfl, dependency, listed, placed⟩⟩
    · exact absurd impossible none
    · obtain ⟨needed, present, rfl⟩ := (lookup dependency source).mp placed
      rw [Nat.zero_add]
      exact ⟨needed, operation, present, found, listed⟩
  · rintro ⟨needed, operation, present, found, listed⟩
    refine ⟨List.mem_range.mpr (List.getElem?_eq_some_iff.mp present).1,
      List.mem_range.mpr (List.getElem?_eq_some_iff.mp found).1, .inr ⟨dependent, operation, found, ?_, ?_⟩⟩
    · rw [Nat.zero_add]
    · exact ⟨needed.operationId, listed, (lookup _ _).mpr ⟨needed, present, rfl⟩⟩

theorem positions_error (failed : positions index known operations = .error error) :
    (∃ id, error = .duplicate id) ∧ ¬((operations.map OperationEnvelope.operationId).Nodup ∧
      ∀ operation ∈ operations, operation.operationId ∉ known) := by
  induction operations generalizing index known with
  | nil => cases failed
  | cons first _ ih =>
    rw [positions] at failed
    split at failed
    · rename_i present
      refine ⟨⟨_, (Except.error.inj failed).symm⟩, fun fresh => ?_⟩
      exact fresh.2 first mem_cons_self present
    · obtain ⟨duplicate, again⟩ := ih failed
      refine ⟨duplicate, fun fresh => again ?_⟩
      obtain ⟨distinct, absent⟩ := fresh
      rw [map_cons, nodup_cons] at distinct
      refine ⟨distinct.2, fun operation member present => ?_⟩
      rcases mem_insert.mp present with same | before
      · exact distinct.1 (LawfulEqOrd.eq_of_compare same ▸ mem_map_of_mem member)
      · exact absent operation (mem_cons_of_mem first member) before

theorem planDependencies_distinct (distinct : (operations.map OperationEnvelope.operationId).Nodup) :
    (planDependencies operations = .error .cycle ∧ ¬Acyclic (DependsOn operations)) ∨
      ∃ plan, planDependencies operations = .ok plan ∧ Acyclic (DependsOn operations) ∧ plan.Sound operations := by
  unfold planDependencies
  cases built : positions 0 ∅ operations with
  | error _ => exact absurd ⟨distinct, fun _ _ => not_mem_empty⟩ (positions_error built).2
  | ok table =>
    have balanced := balanced_batchGraph built
    have valid := balanced.start.rounds (operations.length + 1)
    have leveled := (balanced.start.leveled rfl rfl).rounds balanced.start (operations.length + 1)
    have complete := valid.complete_iff balanced.exhausted
    have ranked := leveled.placed
    rw [linked_batchGraph built] at complete ranked
    unfold DependencyGraph.plan
    dsimp only
    split
    · rename_i cyclic
      exact .inl ⟨rfl, fun acyclic => cyclic (complete.mpr acyclic)⟩
    · rename_i placed
      have acyclic := complete.mp (Decidable.not_not.mp placed)
      refine .inr ⟨_, rfl, acyclic, valid.perm (Decidable.not_not.mp placed), ?_, leveled.joined,
        leveled.ascending, ranked⟩
      intro before dependent after split dependency depends
      rw [← linked_batchGraph built] at depends
      exact valid.sources before dependent after split dependency (mem_range.mp depends.1) depends.2.2

theorem planDependencies_duplicate : (∃ id, planDependencies operations = .error (.duplicate id)) ↔
      ¬(operations.map OperationEnvelope.operationId).Nodup := by
  constructor
  · rintro ⟨id, failed⟩ distinct
    rcases planDependencies_distinct distinct with ⟨cycle, -⟩ | ⟨_, planned, -⟩
    · cases cycle.symm.trans failed
    · cases planned.symm.trans failed
  · intro repeated
    unfold planDependencies
    cases built : positions 0 ∅ operations with
    | error _ =>
      obtain ⟨⟨id, rfl⟩, -⟩ := positions_error built
      exact ⟨id, rfl⟩
    | ok _ => exact absurd (positions_distinct built).1 repeated

end Graph

/-! The planner of the local queue looks for cycles among the operations it keeps. -/

section Agreement
variable {codec : EnvelopeCodec} {entries : List QueueEntry} {registry : OptimizationRegistry}
  {pass : Pass} {turn : Nat}

theorem transGen_continued {Node : Type} {edge : Node → Node → Prop} {first last : Node}
    (chain : TransGen edge first last) (further : ∃ next, edge last next) :
    TransGen (fun source target => edge source target ∧ ∃ next, edge target next) first last := by
  induction chain using TransGen.head_induction_on with
  | single linked => exact .single ⟨linked, further⟩
  | head linked rest ih =>
    obtain ⟨next, onward, -⟩ := TransGen.head'_iff.mp rest
    exact .head ⟨linked, next, onward⟩ ih

theorem exists_of_cycle {Node : Type} {edge : Node → Node → Prop} {node : Node}
    (cycle : TransGen edge node node) : ∃ next, edge node next := by
  obtain ⟨next, onward, -⟩ := TransGen.head'_iff.mp cycle
  exact ⟨next, onward⟩

/-- A dependency among the entries a pass keeps. -/
def KeptDependency (entries : List QueueEntry) (active : ExtTreeMap OperationId Bool) :
    OperationId → OperationId → Prop :=
  Among (fun dependency operation => (dependency, operation) ∈ dependencyEdges entries active)
    (activeDegrees active).keys

theorem ordered_iff_acyclic : (∃ order, Ordered entries active order) ↔ Acyclic (KeptDependency entries active) := by
  rw [KeptDependency, ← exists_order_iff_acyclic ExtTreeMap.nodup_keys]
  refine exists_congr fun order => and_congr_right fun _ => ?_
  simp only [SourcesBefore, ExtTreeMap.mem_keys]

theorem mem_activeDegrees : operation ∈ activeDegrees active ↔ active[operation]? = some true := by
  rw [mem_iff_isSome_getElem?, activeDegrees, getElem?_filterMap']
  cases active[operation]? with
  | none => simp
  | some isActive => cases isActive <;> simp

theorem needed_kept (records : pass.Records entries registry turn)
    (member : entry ∈ entries) (present : other ∈ entries) (needed : entry.id ∈ other.dependencies) :
    pass.active[entry.id]? = some true := by
  have known : entry.id ∈ knownIds entries := by
    rw [knownIds, mem_toFinset]
    exact mem_map_of_mem member
  rw [records.active, if_pos known, Option.some.injEq, decide_eq_true_eq]
  intro removed
  obtain ⟨_, removable, same⟩ := records.removable entry.id removed
  apply removable.unneeded
  rw [dependentIds, mem_toFinset, same, mem_flatMap]
  exact ⟨other, present, needed⟩

def idAt (entries : List QueueEntry) (index : Nat) : OperationId :=
  (entries[index]?).elim ⟨0⟩ QueueEntry.id

theorem acyclic_kept_iff (records : pass.Records entries registry turn)
    (distinct : (entries.map QueueEntry.id).Nodup) :
    Acyclic (KeptDependency entries pass.active) ↔ Acyclic (DependsOn (entries.map QueueEntry.operation)) := by
  have depends_iff (source target : Nat) : DependsOn (entries.map QueueEntry.operation) source target ↔
      ∃ entry other, entries[source]? = some entry ∧ entries[target]? = some other ∧ entry.id ∈ other.dependencies := by
    simp only [DependsOn, getElem?_map, Option.map_eq_some_iff]
    constructor
    · rintro ⟨_, _, ⟨entry, found, rfl⟩, ⟨other, present, rfl⟩, needed⟩
      exact ⟨entry, other, found, present, needed⟩
    · rintro ⟨entry, other, found, present, needed⟩
      exact ⟨_, _, ⟨entry, found, rfl⟩, ⟨other, present, rfl⟩, needed⟩
  constructor
  · intro acyclic index cycle
    -- Every operation on the cycle is needed by the next one, so it is kept.
    refine acyclic (idAt entries index) ?_
    refine TransGen.lift (idAt entries) ?_ _ _ (transGen_continued cycle (exists_of_cycle cycle))
    rintro source target ⟨depends, next, onward⟩
    obtain ⟨entry, other, found, present, needed⟩ := (depends_iff source target).mp depends
    obtain ⟨_, _, present', last, needed'⟩ := (depends_iff target next).mp onward
    cases present.symm.trans present'
    have member := mem_of_getElem? found
    have inside := mem_of_getElem? present
    have sourceKept := needed_kept records member inside needed
    have targetKept := needed_kept records inside (mem_of_getElem? last) needed'
    change KeptDependency entries pass.active (idAt entries source) (idAt entries target)
    rw [idAt, found, idAt, present]
    refine ⟨mem_keys.mpr (mem_activeDegrees.mpr sourceKept),
      mem_keys.mpr (mem_activeDegrees.mpr targetKept), ?_⟩
    refine mem_flatMap.mpr ⟨other, mem_filter.mpr ⟨inside, ?_⟩, mem_map.mpr ⟨entry.id, needed, rfl⟩⟩
    rw [targetKept]
    rfl
  · intro acyclic operation cycle
    refine acyclic ((entries.map QueueEntry.id).idxOf operation) ?_
    refine TransGen.lift (fun id => (entries.map QueueEntry.id).idxOf id) ?_ _ _ cycle
    rintro source _ ⟨sourceKept, -, edge⟩
    obtain ⟨other, active, listed⟩ := mem_flatMap.mp edge
    obtain ⟨_, needed, same⟩ := mem_map.mp listed
    cases same
    have known : source ∈ knownIds entries := by
      by_contra unknown
      have kept := mem_activeDegrees.mp (mem_keys.mp sourceKept)
      rw [records.active, if_neg unknown] at kept
      cases kept
    rw [knownIds, mem_toFinset] at known
    obtain ⟨entry, member, rfl⟩ := mem_map.mp known
    have found (item : QueueEntry) (inside : item ∈ entries) :
        entries[(entries.map QueueEntry.id).idxOf item.id]? = some item := by
      obtain ⟨position, placed⟩ := mem_iff_getElem?.mp inside
      obtain ⟨below, rfl⟩ := List.getElem?_eq_some_iff.mp placed
      have index := distinct.idxOf_getElem position (by simpa using below)
      rw [getElem_map] at index
      rw [index, placed]
    exact (depends_iff _ _).mpr ⟨entry, other, found entry member, found other (mem_of_mem_filter active), needed⟩

/-- Planning a compaction that is stopped by nothing but a cycle is stopped exactly if the batch has one. -/
theorem planCompaction_cycle_iff
    (otherwise : ∀ error, planCompaction codec entries registry maxOperations = .error error →
      error = .dependencyCycle) :
    planCompaction codec entries registry maxOperations = .error .dependencyCycle ↔
      ¬Acyclic (DependsOn (entries.map QueueEntry.operation)) := by
  rcases planCompaction_cases codec entries registry maxOperations with
    ⟨error, other, input⟩ | ⟨pass, distinct, tracks, decided⟩
  · cases otherwise error other
    cases input
  · have required : ∀ edge ∈ dependencyEdges entries pass.active, edge.1 ∈ knownIds entries →
        pass.active[edge.1]? = some true := fun _ listed known => tracks.required_active listed known
    have verified_iff : verifyActiveDependencies entries pass.active = .ok () ↔
        Acyclic (DependsOn (entries.map QueueEntry.operation)) := by
      rw [verifyActiveDependencies_eq_ok, and_iff_right required, ordered_iff_acyclic,
        acyclic_kept_iff tracks.toRecords distinct]
    rw [← verified_iff]
    rcases decided with ⟨verified, planned⟩ | ⟨cyclic, failed⟩
    · rw [planned, verified]
      simp
    · rw [failed, cyclic]
      simp

end Agreement

/-- Planning a batch reports a repeated identity, else a cycle, else a sound plan; and where nothing
else stops it, compaction of the same operations reports a cycle exactly then. -/
theorem dependency_plan_exact (operations : List OperationEnvelope) :
    ((∃ id, planDependencies operations = .error (.duplicate id)) ↔
      ¬(operations.map OperationEnvelope.operationId).Nodup) ∧
    ((operations.map OperationEnvelope.operationId).Nodup →
      (planDependencies operations = .error .cycle ↔ ∃ index, TransGen (DependsOn operations) index index) ∧
      ((¬∃ index, TransGen (DependsOn operations) index index) →
        ∃ plan, planDependencies operations = .ok plan ∧ plan.Sound operations) ∧
      ∀ codec entries registry
        (maxOperations : Nat), entries.map QueueEntry.operation = operations →
        (∀ error, planCompaction codec entries registry maxOperations = .error error →
          error = .dependencyCycle) →
        (planCompaction codec entries registry maxOperations = .error .dependencyCycle ↔
          planDependencies operations = .error .cycle)) := by
  refine ⟨planDependencies_duplicate, fun distinct => ?_⟩
  have cyclic_iff : planDependencies operations = .error .cycle ↔ ¬Acyclic (DependsOn operations) := by
    rcases planDependencies_distinct distinct with ⟨cycle, cyclic⟩ | ⟨plan, planned, acyclic, -⟩
    · exact iff_of_true cycle cyclic
    · rw [planned]
      exact iff_of_false (fun failed => by cases failed) (not_not_intro acyclic)
  refine ⟨?_, ?_, ?_⟩
  · rw [cyclic_iff, Acyclic, not_forall_not]
  · intro none
    rcases planDependencies_distinct distinct with ⟨-, cyclic⟩ | ⟨plan, planned, -, sound⟩
    · exact absurd (not_exists.mp none) cyclic
    · exact ⟨plan, planned, sound⟩
  · rintro _ _ _ _ rfl otherwise
    rw [planCompaction_cycle_iff otherwise, cyclic_iff]

/-- Two operations, the second of which depends on the first. -/
def sampleBatch : List OperationEnvelope :=
  [(sampleEntry 1 1 1 none).operation, { (sampleEntry 2 1 1 none).operation with
      metadata := { (sampleEntry 2 1 1 none).operation.metadata with dependencies := [⟨1⟩] } }]

theorem dependency_plan_exact_chain : (sampleBatch.map OperationEnvelope.operationId).Nodup ∧
      ∃ plan, planDependencies sampleBatch = .ok plan ∧ plan.Sound sampleBatch := by
  have distinct : (sampleBatch.map OperationEnvelope.operationId).Nodup := by decide
  refine ⟨distinct, ((dependency_plan_exact sampleBatch).2 distinct).2.1 fun cycle => ?_⟩
  have failed := ((dependency_plan_exact sampleBatch).2 distinct).1.mpr cycle
  have planned : planDependencies sampleBatch = .ok { orderedIndices := [0, 1], groups := [[0], [1]] } := by
    decide +kernel
  cases planned.symm.trans failed

end Aequora.Server
