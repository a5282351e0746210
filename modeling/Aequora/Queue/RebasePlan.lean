import Aequora.Queue.Compaction

/-! What a rebase plan lists: each entry whose entity is targeted is rewritten, left to a conflict
or skipped. -/

namespace Aequora.Queue

open Std Aequora.Base Aequora.Protocol List

section
variable (descriptor : OperationOptimization) (target : RebaseTarget)

/-- The policy of the kind lets the intent hold on the new base: it is reapplied as it is, or the
fields it reads and writes were not changed. -/
def OperationOptimization.Permits : Prop :=
  descriptor.rebase = .reapplyIntent ∨
    descriptor.rebase = .fieldAware ∧ ∃ reads writes, descriptor.access = .fields reads writes ∧
      Disjoint reads target.changedFields ∧ Disjoint writes target.changedFields

theorem OperationOptimization.rebases_iff : descriptor.rebases target = true ↔ descriptor.Permits target := by
  unfold rebases Permits
  cases policy : descriptor.rebase with
  | never => simp
  | reapplyIntent => simp
  | custom => simp
  | fieldAware =>
    cases access : descriptor.access with
    | aggregateWide => simp
    | fields _ _ =>
      simp [← Finset.disjoint_iff_inter_eq_empty, Finset.disjoint_union_left]

end

section Plan
def RebasePlan.listed (plan : RebasePlan) : List OperationId :=
  plan.rewrites.map RebaseRewrite.operationId ++ plan.conflicts ++ plan.immutableSkipped

/-- The rewrite comes from an entry that was never sent and whose policy permits its target. -/
def RewriteOf (table : ExtTreeMap EntityRef RebaseTarget) (registry : OptimizationRegistry) (entry : QueueEntry)
    (rewrite : RebaseRewrite) : Prop :=
  rewrite.operationId = entry.id ∧ entry.mutability = .mutableUnsent ∧
    ∃ target, table[entry.operation.entity]? = some target ∧
      (registry.descriptor entry.operation.operationKind).Permits target ∧ rewrite.newBase = target.version

theorem rebaseEntry_listed (plan : RebasePlan) (entry : QueueEntry) :
    (rebaseEntry table registry plan entry).listed.Perm
      (plan.listed ++ if entry.operation.entity ∈ table then [entry.id] else []) := by
  unfold rebaseEntry
  split
  · rename_i absent
    rw [if_neg, append_nil]
    rw [mem_iff_lookup, absent]
    simp
  · rename_i target found
    rw [if_pos (mem_iff_lookup.mpr ⟨target, found⟩)]
    have middle (first second third : List OperationId) :
        (first ++ [entry.id] ++ second ++ third).Perm (first ++ second ++ third ++ [entry.id]) := by
      simp only [append_assoc]
      refine Perm.append_left first ?_
      rw [← append_assoc second]
      exact perm_append_comm
    split
    · simp [RebasePlan.listed]
    · split
      · simpa [RebasePlan.listed] using
          middle (plan.rewrites.map RebaseRewrite.operationId) plan.conflicts plan.immutableSkipped
      · simpa [RebasePlan.listed] using
          middle (plan.rewrites.map RebaseRewrite.operationId ++ plan.conflicts) [] plan.immutableSkipped

theorem foldl_rebaseEntry_listed (entries : List QueueEntry) (plan : RebasePlan) :
    (entries.foldl (rebaseEntry table registry) plan).listed.Perm
      (plan.listed ++ (entries.filter fun entry => decide (entry.operation.entity ∈ table)).map QueueEntry.id) := by
  induction entries generalizing plan with
  | nil => simp
  | cons entry _ ih =>
    refine (ih _).trans ?_
    refine ((rebaseEntry_listed plan entry).append_right _).trans ?_
    by_cases targeted : entry.operation.entity ∈ table
    · simp [targeted]
    · simp [targeted]

theorem mem_rebaseEntry_rewrites : rewrite ∈ (rebaseEntry table registry plan entry).rewrites →
      rewrite ∈ plan.rewrites ∨ RewriteOf table registry entry rewrite := by
  intro listed
  unfold rebaseEntry at listed
  split at listed
  · exact .inl listed
  · rename_i target found
    split at listed
    · exact .inl listed
    · rename_i unsent
      split at listed
      · rename_i permitted
        rcases mem_append.mp listed with earlier | now
        · exact .inl earlier
        · cases mem_singleton.mp now
          exact .inr ⟨rfl, Decidable.not_not.mp unsent, target, found,
            (OperationOptimization.rebases_iff ..).mp permitted, rfl⟩
      · exact .inl listed

theorem foldl_rebaseEntry_rewrites {entries : List QueueEntry}
    (listed : rewrite ∈ (entries.foldl (rebaseEntry table registry) plan).rewrites) :
    rewrite ∈ plan.rewrites ∨ ∃ entry ∈ entries, RewriteOf table registry entry rewrite := by
  induction entries generalizing plan with
  | nil => exact .inl listed
  | cons entry _ ih =>
    rcases ih listed with earlier | ⟨other, member, made⟩
    · rcases mem_rebaseEntry_rewrites earlier with before | made
      · exact .inl before
      · exact .inr ⟨entry, mem_cons_self, made⟩
    · exact .inr ⟨other, mem_cons_of_mem entry member, made⟩

theorem rewrites_subset_foldl (entries : List QueueEntry) (plan : RebasePlan) :
    plan.rewrites ⊆ (entries.foldl (rebaseEntry table registry) plan).rewrites := by
  induction entries generalizing plan with
  | nil => exact Subset.refl _
  | cons _ _ ih =>
    refine Subset.trans ?_ (ih _)
    unfold rebaseEntry
    split
    · exact Subset.refl _
    · split
      · exact Subset.refl _
      · split
        · exact subset_append_left _ _
        · exact Subset.refl _

theorem exists_rewrite {entries : List QueueEntry}
    (member : entry ∈ entries) (unsent : entry.mutability = .mutableUnsent)
    (found : table[entry.operation.entity]? = some target)
    (permitted : (registry.descriptor entry.operation.operationKind).Permits target) :
    ∃ rewrite ∈ (entries.foldl (rebaseEntry table registry) plan).rewrites, rewrite.operationId = entry.id := by
  induction entries generalizing plan with
  | nil => cases member
  | cons _ rest ih =>
    rcases mem_cons.mp member with rfl | later
    · refine ⟨⟨entry.id, entry.operation.baseVersion, target.version⟩, rewrites_subset_foldl rest _ ?_, rfl⟩
      simp [rebaseEntry, found, unsent, (OperationOptimization.rebases_iff ..).mpr permitted]
    · exact ih later

end Plan

theorem planRebase_distinct (planned : planRebase codec entries targets registry = .ok plan) :
    (plan.rewrites.map RebaseRewrite.operationId).Nodup := by
  obtain ⟨valid, planned⟩ := check_bind_eq_ok.mp planned
  have distinct : (entries.map QueueEntry.id).Nodup := (validateFrom_distinct valid).1
  have listed : plan.listed.Nodup := by
    cases planned
    refine (foldl_rebaseEntry_listed entries _).nodup_iff.mpr ?_
    exact distinct.sublist (filter_sublist.map _)
  rw [RebasePlan.listed, append_assoc] at listed
  exact listed.sublist (sublist_append_left _ _)

end Aequora.Queue
