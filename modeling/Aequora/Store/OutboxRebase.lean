import Aequora.Queue.RebasePlan
import Aequora.Store.OutboxCompaction

/-! Rebase of the outbox of the in-memory local store: unsent operations get the version of their
target as a new base, where their policy allows it, and nothing else changes. -/

namespace Aequora.Store.LocalOutbox

open Std Aequora.Base Aequora.Protocol List

variable {outbox : LocalOutbox} {state : LocalState}

def targetTable (targets : List Queue.RebaseTarget) : ExtTreeMap EntityRef Queue.RebaseTarget :=
  ExtTreeMap.ofList (targets.map fun target => (target.entity, target))

theorem mem_of_targetTable
    (found : (targetTable targets)[entity]? = some target) : target ∈ targets ∧ target.entity = entity := by
  obtain ⟨_, member, same⟩ := mem_map.mp (mem_of_lookup_ofList found)
  cases same
  exact ⟨member, rfl⟩

/-! Several rewrites, one after the other. -/

section
variable (rewrites : List Queue.RebaseRewrite) (id : OperationId) (operation : OperationEnvelope)

def rebaseAll : OperationEnvelope :=
  rewrites.foldl (fun rebased rewrite => rebaseOne rewrite id rebased) operation

theorem rebaseAll_frame : ∃ base, rebaseAll rewrites id operation = { operation with baseVersion := base } := by
  induction rewrites generalizing operation with
  | nil => exact ⟨operation.baseVersion, rfl⟩
  | cons rewrite _ ih =>
    obtain ⟨base, later⟩ := ih (rebaseOne rewrite id operation)
    refine ⟨base, later.trans ?_⟩
    unfold rebaseOne
    split <;> rfl

end

theorem rebaseAll_unlisted {id : OperationId} (operation : OperationEnvelope)
    (unlisted : ∀ rewrite ∈ rewrites, rewrite.operationId ≠ id) : rebaseAll rewrites id operation = operation := by
  induction rewrites with
  | nil => rfl
  | cons rewrite _ ih =>
    rw [forall_mem_cons] at unlisted
    have same : rebaseOne rewrite id operation = operation := if_neg unlisted.1
    rw [rebaseAll, foldl_cons, same]
    exact ih unlisted.2

theorem rebaseAll_baseVersion {id : OperationId}
    (agree : ∀ rewrite ∈ rewrites, rewrite.operationId = id → rewrite.newBase = base)
    (set : operation.baseVersion = base ∨ ∃ rewrite ∈ rewrites, rewrite.operationId = id) :
    (rebaseAll rewrites id operation).baseVersion = base := by
  induction rewrites generalizing operation with
  | nil =>
    rcases set with already | ⟨_, member, _⟩
    · exact already
    · cases member
  | cons rewrite rest ih =>
    rw [forall_mem_cons] at agree
    have next : (rebaseAll (rewrite :: rest) id operation) = rebaseAll rest id (rebaseOne rewrite id operation) := rfl
    rw [next]
    refine ih agree.2 ?_
    by_cases named : rewrite.operationId = id
    · left
      rw [rebaseOne, if_pos named]
      exact agree.1 named
    · rw [rebaseOne, if_neg named]
      rcases set with already | ⟨other, member, same⟩
      · exact .inl already
      · right
        exact ⟨other, (mem_cons.mp member).resolve_left fun first => named (first ▸ same), same⟩

/-- Rewrites of pending operations succeed and change these and their originals alike. -/
theorem applyRewrites_eq (recorded : Recorded state)
    (known : ∀ rewrite ∈ rewrites, ∃ operation ∈ state.pending, operation.operationId = rewrite.operationId) :
    applyRewrites rewrites state =
      ({ state with
          pending := state.pending.map fun operation => rebaseAll rewrites operation.operationId operation
          original := state.original.map (rebaseAll rewrites) }, .ok ()) := by
  induction rewrites generalizing state with
  | nil =>
    have originals : state.original.map (rebaseAll []) = state.original := by
      refine ExtTreeMap.ext_getElem? fun id => ?_
      rw [ExtTreeMap.getElem?_map]
      exact Option.map_id'
    rw [originals]
    simp [applyRewrites, rebaseAll]
  | cons rewrite rest ih =>
    rw [forall_mem_cons] at known
    obtain ⟨⟨_, member, same⟩, others⟩ := known
    have still : ∀ later ∈ rest, ∃ waiting ∈ (rebasedBy state rewrite).pending,
        waiting.operationId = later.operationId := by
      intro later listed
      obtain ⟨waiting, present, named⟩ := others later listed
      exact ⟨_, mem_map_of_mem present, by rw [rebaseOne_operationId]; exact named⟩
    rw [applyRewrites_cons recorded rest member same, ih (recorded.rebase rewrite) still]
    have pending : (rebasedBy state rewrite).pending.map (fun waiting =>
        rebaseAll rest waiting.operationId waiting) =
          state.pending.map fun waiting => rebaseAll (rewrite :: rest) waiting.operationId waiting := by
      simp [rebasedBy, rebaseAll, Function.comp_def]
    have originals : (rebasedBy state rewrite).original.map (rebaseAll rest) =
        state.original.map (rebaseAll (rewrite :: rest)) := by
      refine ExtTreeMap.ext_getElem? fun id => ?_
      simp only [rebasedBy, ExtTreeMap.getElem?_map, Option.map_map]
      rfl
    rw [pending, originals]
    rfl

/-! The plan of a rebase. -/

section
variable (recorded : Recorded outbox.state) (planned : outbox.planRebase codec registry targets maxOperations = .ok plan)
include planned

theorem planRebase_eq_ok : ∃ entries, outbox.queueEntries codec maxOperations = .ok entries ∧
      plan = entries.foldl (Queue.rebaseEntry (targetTable targets) registry)
        { rewrites := [], conflicts := [], immutableSkipped := [] } := by
  obtain ⟨entries, made, planned⟩ := bind_eq_ok_iff.mp planned
  obtain ⟨-, planned⟩ := check_bind_eq_ok.mp (queueResult_eq_ok.mp planned)
  exact ⟨entries, made, (Except.ok.inj planned).symm⟩

/-- The operation was never sent and its policy permits the target, which is one of those given. -/
structure Rebasable (registry : Queue.OptimizationRegistry) (targets : List Queue.RebaseTarget)
    (sent : Finset OperationId) (operation : OperationEnvelope) (target : Queue.RebaseTarget) : Prop where
  unsent : operation.operationId ∉ sent
  listed : target ∈ targets
  entity : target.entity = operation.entity
  permitted : (registry.descriptor operation.operationKind).Permits target

theorem rewrite_of_plan (listed : rewrite ∈ plan.rewrites) :
    ∃ operation ∈ outbox.state.pending.take maxOperations, ∃ target, operation.operationId = rewrite.operationId ∧
      (targetTable targets)[operation.entity]? = some target ∧
      Rebasable registry targets outbox.everSent operation target ∧ rewrite.newBase = target.version := by
  obtain ⟨_, made, rfl⟩ := planRebase_eq_ok planned
  obtain ⟨window, unsent⟩ := queueEntries_eq_ok made
  rcases Queue.foldl_rebaseEntry_rewrites listed with impossible | ⟨entry, member, same, changeable, target, found, permitted, base⟩
  · cases impossible
  · obtain ⟨inTargets, entity⟩ := mem_of_targetTable found
    rw [← window]
    exact ⟨entry.operation, mem_map_of_mem member, target, same.symm, found,
      ⟨(unsent entry member).mp changeable, inTargets, entity, permitted⟩, base⟩

/-- A first pending operation that may be rebased on its target is rewritten. -/
theorem plan_of_rebasable (member : operation ∈ outbox.state.pending.take maxOperations)
    (found : (targetTable targets)[operation.entity]? = some target)
    (rebasable : Rebasable registry targets outbox.everSent operation target) :
    ∃ rewrite ∈ plan.rewrites, rewrite.operationId = operation.operationId := by
  obtain ⟨_, made, rfl⟩ := planRebase_eq_ok planned
  obtain ⟨window, unsent⟩ := queueEntries_eq_ok made
  rw [← window] at member
  obtain ⟨entry, listed, rfl⟩ := mem_map.mp member
  exact Queue.exists_rewrite listed ((unsent entry listed).mpr rebasable.unsent) found rebasable.permitted

include recorded

theorem rewritten_of_plan : applyRewrites plan.rewrites outbox.state =
      ({ outbox.state with
          pending := outbox.state.pending.map fun operation =>
            rebaseAll plan.rewrites operation.operationId operation
          original := outbox.state.original.map (rebaseAll plan.rewrites) }, .ok ()) := by
  refine applyRewrites_eq recorded fun rewrite listed => ?_
  obtain ⟨operation, member, -, same, -⟩ := rewrite_of_plan planned listed
  exact ⟨operation, mem_of_mem_take member, same⟩

/-- All rewrites of a pending operation give it the version of its target. -/
theorem rewrites_agree (member : operation ∈ outbox.state.pending)
    (listed : rewrite ∈ plan.rewrites) (same : rewrite.operationId = operation.operationId) :
    ∃ target, (targetTable targets)[operation.entity]? = some target ∧
      Rebasable registry targets outbox.everSent operation target ∧ rewrite.newBase = target.version := by
  obtain ⟨_, inWindow, target, named, found, rebasable, base⟩ := rewrite_of_plan planned listed
  cases inj_on_of_nodup_map recorded.unique (mem_of_mem_take inWindow) member (named.trans same)
  exact ⟨target, found, rebasable, base⟩

/-- The new version of an operation: the old one, or rebased on a target it may be rebased on. -/
def Rebase (registry : Queue.OptimizationRegistry) (targets : List Queue.RebaseTarget) (sent : Finset OperationId)
    (old new : OperationEnvelope) : Prop :=
  new = old ∨ ∃ target, Rebasable registry targets sent old target ∧ new = { old with baseVersion := target.version }

theorem rebase_of_plan (member : operation ∈ outbox.state.pending) :
    Rebase registry targets outbox.everSent operation
      (rebaseAll plan.rewrites operation.operationId operation) := by
  by_cases rewritten : ∃ rewrite ∈ plan.rewrites, rewrite.operationId = operation.operationId
  · obtain ⟨rewrite, listed, same⟩ := rewritten
    obtain ⟨target, found, rebasable, -⟩ := rewrites_agree recorded planned member listed same
    obtain ⟨base, framed⟩ := rebaseAll_frame plan.rewrites operation.operationId operation
    have set : (rebaseAll plan.rewrites operation.operationId operation).baseVersion = target.version := by
      refine rebaseAll_baseVersion (fun other present named => ?_) (.inr ⟨rewrite, listed, same⟩)
      obtain ⟨_, found', -, base⟩ := rewrites_agree recorded planned member present named
      rw [base, Option.some.inj (found'.symm.trans found)]
    rw [framed] at set
    exact .inr ⟨target, rebasable, by rw [framed, ← set]⟩
  · exact .inl (rebaseAll_unlisted operation fun rewrite listed same => rewritten ⟨rewrite, listed, same⟩)

/-- The change from one outbox to the other is a rebase of operations that were never sent. -/
structure OnlyRebased (registry : Queue.OptimizationRegistry) (targets : List Queue.RebaseTarget)
    (sent : Finset OperationId) (before after : LocalOutbox) : Prop where
  frame : after = { before with state := { before.state with
    pending := after.state.pending
    original := after.state.original } }
  pending : Forall₂ (Rebase registry targets sent) before.state.pending after.state.pending
  original : ∀ id : OperationId,
    Option.Rel (Rebase registry targets sent) before.state.original[id]? after.state.original[id]?

omit recorded planned in
theorem onlyRebased_refl (registry : Queue.OptimizationRegistry) (targets : List Queue.RebaseTarget)
    (sent : Finset OperationId) (outbox : LocalOutbox) : OnlyRebased registry targets sent outbox outbox where
  frame := rfl
  pending := forall₂_same.mpr fun _ _ => .inl rfl
  original id := by
    cases outbox.state.original[id]? with
    | none => exact .none
    | some _ => exact .some (.inl rfl)

theorem onlyRebased_of_plan : OnlyRebased registry targets outbox.everSent outbox
      { outbox with state := (applyRewrites plan.rewrites outbox.state).1 } := by
  rw [rewritten_of_plan recorded planned]
  refine ⟨rfl, ?_, fun id => ?_⟩
  · exact forall₂_map_right_iff.mpr
      (forall₂_same.mpr fun operation member => rebase_of_plan recorded planned member)
  · rw [ExtTreeMap.getElem?_map]
    cases found : outbox.state.original[id]? with
    | none => exact .none
    | some operation =>
      refine .some ?_
      by_cases rewritten : ∃ rewrite ∈ plan.rewrites, rewrite.operationId = id
      · obtain ⟨rewrite, listed, rfl⟩ := rewritten
        obtain ⟨pending, member, -, same, -⟩ := rewrite_of_plan planned listed
        have inQueue := mem_of_mem_take member
        have mirrored := recorded.original pending inQueue
        rw [same, found, Option.some.injEq] at mirrored
        subst mirrored
        rw [← same]
        exact rebase_of_plan recorded planned inQueue
      · exact .inl (rebaseAll_unlisted operation fun rewrite listed same => rewritten ⟨rewrite, listed, same⟩)

/-- Every planned operation whose entity is targeted is listed exactly once. -/
theorem listed_once (member : operation ∈ outbox.state.pending.take maxOperations)
    (targeted : ∃ target ∈ targets, target.entity = operation.entity) :
    plan.listed.count operation.operationId = 1 := by
  obtain ⟨entries, made, rfl⟩ := planRebase_eq_ok planned
  obtain ⟨window, -⟩ := queueEntries_eq_ok made
  have unique : (entries.map Queue.QueueEntry.id).Nodup := by
    have ids : entries.map Queue.QueueEntry.id =
        (outbox.state.pending.take maxOperations).map OperationEnvelope.operationId := by
      rw [← window, map_map]
      rfl
    rw [ids]
    exact recorded.unique.sublist ((take_sublist _ _).map _)
  have inTable : operation.entity ∈ targetTable targets := by
    obtain ⟨_, listed, same⟩ := targeted
    rw [targetTable, ExtTreeMap.mem_ofList, contains_iff_mem, map_map, ← same]
    exact mem_map_of_mem listed
  rw [← window] at member
  obtain ⟨_, present, rfl⟩ := mem_map.mp member
  rw [(Queue.foldl_rebaseEntry_listed entries _).count_eq]
  refine count_eq_one_of_mem (unique.sublist (filter_sublist.map _)) ?_
  exact mem_map_of_mem (mem_filter.mpr ⟨present, decide_eq_true inTable⟩)

/-! Repeating a rebase. -/

variable {after : LocalOutbox}
  (applied : after = { outbox with state := (applyRewrites plan.rewrites outbox.state).1 })
  (replanned : after.planRebase codec registry targets maxOperations = .ok again)
include applied replanned

theorem rebaseAll_again (member : operation ∈ after.state.pending) :
    rebaseAll again.rewrites operation.operationId operation = operation := by
  have recordedAfter : Recorded after.state := applied ▸ recorded.rewritten plan.rewrites
  have pending : after.state.pending = outbox.state.pending.map fun operation =>
      rebaseAll plan.rewrites operation.operationId operation := by
    rw [applied, rewritten_of_plan recorded planned]
  have everSent : after.everSent = outbox.everSent := by rw [applied]
  by_cases rewritten : ∃ rewrite ∈ again.rewrites, rewrite.operationId = operation.operationId
  · obtain ⟨rewrite, listed, same⟩ := rewritten
    obtain ⟨_, inWindow, target, named, found, rebasable, -⟩ := rewrite_of_plan replanned listed
    cases inj_on_of_nodup_map recordedAfter.unique (mem_of_mem_take inWindow) member
      (named.trans same)
    -- The operation was rewritten by the first plan already, and to the same base.
    rw [pending, ← map_take] at inWindow
    obtain ⟨before, first, rfl⟩ := mem_map.mp inWindow
    obtain ⟨_, framed⟩ := rebaseAll_frame plan.rewrites before.operationId before
    have foundBefore : (targetTable targets)[before.entity]? = some target := by simpa [framed] using found
    have rebasableBefore : Rebasable registry targets outbox.everSent before target := by
      obtain ⟨unsent, inTargets, entity, permitted⟩ := rebasable
      rw [framed] at unsent entity permitted
      exact ⟨everSent ▸ unsent, inTargets, entity, permitted⟩
    obtain ⟨earlier, present, identity⟩ := plan_of_rebasable planned first foundBefore rebasableBefore
    have settled : (rebaseAll plan.rewrites before.operationId before).baseVersion = target.version := by
      refine rebaseAll_baseVersion (fun next present named => ?_) (.inr ⟨earlier, present, identity⟩)
      obtain ⟨agreed, found', -, version⟩ := rewrites_agree recorded planned (mem_of_mem_take first) present named
      rw [version, Option.some.inj (found'.symm.trans foundBefore)]
    generalize rebaseAll plan.rewrites before.operationId before = held at *
    obtain ⟨newBase, framedAgain⟩ := rebaseAll_frame again.rewrites held.operationId held
    have same : newBase = held.baseVersion := by
      have set : (rebaseAll again.rewrites held.operationId held).baseVersion = target.version := by
        refine rebaseAll_baseVersion (fun next present named => ?_) (.inl settled)
        obtain ⟨_, found', -, version⟩ := rewrites_agree recordedAfter replanned member present named
        rw [version, Option.some.inj (found'.symm.trans found)]
      rw [framedAgain] at set
      exact set.trans settled.symm
    rw [framedAgain, same]
  · exact rebaseAll_unlisted operation fun rewrite listed same => rewritten ⟨rewrite, listed, same⟩

theorem applyRewrites_again : (applyRewrites again.rewrites after.state).1 = after.state := by
  have recordedAfter : Recorded after.state := applied ▸ recorded.rewritten plan.rewrites
  have fixed : ∀ operation ∈ after.state.pending,
      rebaseAll again.rewrites operation.operationId operation = operation :=
    fun _ member => rebaseAll_again recorded planned applied replanned member
  have pending : after.state.pending.map (fun operation =>
      rebaseAll again.rewrites operation.operationId operation) = after.state.pending :=
    (map_congr_left fun operation member => fixed operation member).trans (map_id _)
  have original : after.state.original.map (rebaseAll again.rewrites) = after.state.original := by
    refine ExtTreeMap.ext_getElem? fun id => ?_
    rw [ExtTreeMap.getElem?_map]
    by_cases rewritten : ∃ rewrite ∈ again.rewrites, rewrite.operationId = id
    · obtain ⟨rewrite, listed, rfl⟩ := rewritten
      obtain ⟨operation, inWindow, -, same, -⟩ := rewrite_of_plan replanned listed
      have member := mem_of_mem_take inWindow
      rw [← same, recordedAfter.original operation member, Option.map_some, fixed operation member]
    · have unlisted : ∀ rewrite ∈ again.rewrites, rewrite.operationId ≠ id :=
        fun rewrite listed same => rewritten ⟨rewrite, listed, same⟩
      cases after.state.original[id]? with
      | none => rfl
      | some operation => rw [Option.map_some, rebaseAll_unlisted operation unlisted]
  rw [rewritten_of_plan recordedAfter replanned, pending, original]

end

/-- A rebase is refused and changes nothing, or carries out its plan. -/
theorem rebaseReferenceOutbox_cases (recorded : Recorded outbox.state) :
    (∃ error, outbox.planRebase codec registry targets maxOperations = .error error ∧
      outbox.rebaseReferenceOutbox codec registry targets maxOperations = (outbox, .error error)) ∨
    ∃ plan, outbox.planRebase codec registry targets maxOperations = .ok plan ∧
      outbox.rebaseReferenceOutbox codec registry targets maxOperations =
        ({ outbox with state := (applyRewrites plan.rewrites outbox.state).1 }, .ok plan) := by
  unfold rebaseReferenceOutbox
  cases planned : outbox.planRebase codec registry targets maxOperations with
  | error error => exact .inl ⟨error, rfl, rfl⟩
  | ok plan =>
    refine .inr ⟨plan, rfl, ?_⟩
    simp only [rewritten_of_plan recorded planned]
    rfl

/-- Whatever calls came before: a rebase changes nothing but the base of pending operations that were
never sent, to the version of a target their policy permits; it lists every planned operation with a
target exactly once, and repeating it changes nothing. -/
theorem rebase_only_bases (codec : Queue.EnvelopeCodec) (calls : List OutboxCall)
    (registry : Queue.OptimizationRegistry) (targets : List Queue.RebaseTarget) (maxOperations : Nat)
    {after : LocalOutbox} {result : Except StoreError Queue.RebasePlan}
    (rebased : (reached codec calls).rebaseReferenceOutbox codec registry targets maxOperations = (after, result)) :
    OnlyRebased registry targets (sent codec calls).toFinset (reached codec calls) after ∧
    (∀ plan, result = .ok plan → ∀ operation ∈ (reached codec calls).state.pending.take maxOperations,
      (∃ target ∈ targets, target.entity = operation.entity) → plan.listed.count operation.operationId = 1) ∧
    (after.rebaseReferenceOutbox codec registry targets maxOperations).1 = after := by
  have recorded := reached_recorded codec calls
  rw [← reached_remembers codec calls]
  rcases rebaseReferenceOutbox_cases recorded with ⟨error, -, refused⟩ | ⟨plan, planned, carried⟩
  · cases rebased.symm.trans refused
    refine ⟨onlyRebased_refl .., ?_, congrArg Prod.fst refused⟩
    intro plan impossible
    cases impossible
  · obtain ⟨applied, rfl⟩ := Prod.mk.inj (rebased.symm.trans carried)
    refine ⟨applied ▸ onlyRebased_of_plan recorded planned, ?_, ?_⟩
    · intro _ same _ member targeted
      cases same
      exact listed_once recorded planned member targeted
    · have recordedAfter : Recorded after.state := applied ▸ recorded.rewritten plan.rewrites
      rcases rebaseReferenceOutbox_cases recordedAfter with ⟨_, -, refused⟩ | ⟨_, replanned, repeated⟩
      · exact congrArg Prod.fst refused
      · rw [repeated, applyRewrites_again recorded planned applied replanned]

def reapplyingRegistry : Queue.OptimizationRegistry :=
  Queue.OptimizationRegistry.default.register 1 { Queue.OperationOptimization.default with rebase := .reapplyIntent }

def exampleTarget : Queue.RebaseTarget where
  entity := { entityType := 1, entityId := ⟨1⟩ }
  version := some 7
  changedFields := ∅

def halfSent : List OutboxCall :=
  [.append (exampleUpdate 1 []), .markSending (.ok ()) [⟨1⟩], .append (exampleUpdate 2 [])]

/-- The operation that was sent is skipped, the other one is rebased, once and for all. -/
theorem rebase_only_bases_unsent :
    ((reached exampleCodec halfSent).rebaseReferenceOutbox exampleCodec reapplyingRegistry [exampleTarget] 2).2 =
      .ok { rewrites := [{ operationId := ⟨2⟩, oldBase := none, newBase := some 7 }]
            conflicts := []
            immutableSkipped := [⟨1⟩] } ∧
    OnlyRebased reapplyingRegistry [exampleTarget] (sent exampleCodec halfSent).toFinset
      (reached exampleCodec halfSent)
      ((reached exampleCodec halfSent).rebaseReferenceOutbox exampleCodec reapplyingRegistry [exampleTarget] 2).1 :=
  ⟨by decide +kernel, (rebase_only_bases exampleCodec halfSent reapplyingRegistry [exampleTarget] 2
    (Prod.eta _).symm).1⟩

end Aequora.Store.LocalOutbox
