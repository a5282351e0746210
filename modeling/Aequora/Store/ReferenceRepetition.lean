import Aequora.Store.ReferenceOutbox

/-! The in-memory local store given a response for the second time, and given a page it refuses. The
lists of rejections and conflicts do not know what they have seen. -/

namespace Aequora.Store

open Std Aequora.Base Aequora.Protocol LocalState

inductive ConflictResolution where
  | acceptServer
  | supersededBy (operation : OperationId)

/-- The conflicts without a decision. The table of decisions lies beside the rest of the state. -/
def LocalState.unresolvedConflictCount (conflictResolutions : ExtTreeMap OperationId ConflictResolution)
    (state : LocalState) : Nat :=
  (state.conflicts.filter fun conflict => decide (conflict.operationId ∉ conflictResolutions)).length

section
variable (response : SyncResponse) (states : ExtTreeMap OperationId OutboxState)

/-- The states a response gives: of two results for one operation the later list counts. -/
def settleOutbox : ExtTreeMap OperationId OutboxState :=
  setOutbox
    (setOutbox
      (setOutbox states (response.acknowledged.map OperationAck.operationId) .acknowledged)
      (response.rejected.map OperationRejection.operationId) .rejected)
    (response.conflicts.map Conflict.operationId) .conflict

theorem settleOutbox_twice : settleOutbox response (settleOutbox response states) = settleOutbox response states := by
  apply ExtTreeMap.ext_getElem?
  intro _
  simp only [settleOutbox, setOutbox_lookup]
  split
  · rfl
  · split
    · rfl
    · split <;> rfl

end

namespace AppliedTables
variable {tables : AppliedTables}

def applyAll (tables : AppliedTables) (changes : List RemoteChange) : AppliedTables :=
  changes.foldl (fun built change => built.applyOnce change.scopeId change) tables

theorem applyOnce_of_marked
    (marked : (scope, change.sequence) ∈ tables.applied) : tables.applyOnce scope change = tables :=
  if_pos marked

theorem applied_applyOnce (tables : AppliedTables) (scope : SyncScopeId) (change : RemoteChange) :
    (tables.applyOnce scope change).applied = insert (scope, change.sequence) tables.applied := by
  unfold applyOnce
  split
  · rename_i marked
    exact (Finset.insert_eq_of_mem marked).symm
  · rfl

theorem mem_applied_applyAll : mark ∈ (tables.applyAll changes).applied ↔
      mark ∈ tables.applied ∨ ∃ change ∈ changes, (change.scopeId, change.sequence) = mark := by
  induction changes generalizing tables with
  | nil => simp [applyAll]
  | cons _ _ ih =>
    rw [applyAll, List.foldl_cons, ← applyAll, ih, applied_applyOnce, Finset.mem_insert]
    simp only [List.mem_cons, exists_eq_or_imp, eq_comm (a := mark)]
    tauto

theorem applyAll_of_marked (marked : ∀ change ∈ changes, (change.scopeId, change.sequence) ∈ tables.applied) :
    tables.applyAll changes = tables := by
  induction changes with
  | nil => rfl
  | cons _ _ ih =>
    obtain ⟨first, later⟩ := List.forall_mem_cons.mp marked
    rw [applyAll, List.foldl_cons, applyOnce_of_marked first]
    exact ih later

theorem applyAll_twice (tables : AppliedTables) (changes : List RemoteChange) :
    (tables.applyAll changes).applyAll changes = tables.applyAll changes := by
  apply applyAll_of_marked
  intro change member
  exact mem_applied_applyAll.mpr (.inr ⟨change, member, rfl⟩)

end AppliedTables

namespace LocalState
theorem applyChanges_eq (changes : List RemoteChange) (state : LocalState) :
    changes.foldl applyChange state = { state with
      processed := (state.tables.applyAll changes).applied
      entities := (state.tables.applyAll changes).entities } := by
  induction changes generalizing state with
  | nil => rfl
  | cons _ _ ih =>
    rw [List.foldl_cons, ih]
    rfl

/-- All that an accepted response does. -/
def settle (response : SyncResponse) (state : LocalState) : LocalState :=
  { state with
    outboxStates := settleOutbox response state.outboxStates
    pending := state.pending.filter fun operation => decide (operation.operationId ∉ terminalIds response)
    processed := (state.tables.applyAll response.changes).applied
    entities := (state.tables.applyAll response.changes).entities
    rejections := state.rejections ++ response.rejected
    conflicts := state.conflicts ++ response.conflicts
    cursors := state.cursors.insert response.nextCursor.scope response.nextCursor }

theorem reconcileReference_eq (response : SyncResponse) (state : LocalState) :
    reconcileReference response state =
      if state.cursors[response.nextCursor.scope]?.any
          fun cursor => decide (cursor.sequence > response.nextCursor.sequence) then
        (state, .error (.permanent "cursor regression during reconciliation"))
      else (settle response state, .ok ()) := by
  unfold reconcileReference
  dsimp only
  split
  · rfl
  · rw [applyChanges_eq]
    rfl

theorem reconcileReference_accepted
    (accepted : reconcileReference response state = (next, .ok ())) : next = settle response state := by
  rw [reconcileReference_eq] at accepted
  split at accepted
  · cases accepted
  · exact (congrArg Prod.fst accepted).symm

theorem reconcileReference_again (response : SyncResponse) (state : LocalState) :
    reconcileReference response (settle response state) =
      ({ settle response state with
        rejections := state.rejections ++ response.rejected ++ response.rejected
        conflicts := state.conflicts ++ response.conflicts ++ response.conflicts }, .ok ()) := by
  have current : (settle response state).cursors[response.nextCursor.scope]? = some response.nextCursor := by
    rw [settle, lookup_insert, if_pos rfl]
  have inOrder : ¬((settle response state).cursors[response.nextCursor.scope]?.any
      fun cursor => decide (cursor.sequence > response.nextCursor.sequence)) = true := by
    simp [current]
  have states : settleOutbox response (settle response state).outboxStates =
      (settle response state).outboxStates := settleOutbox_twice response state.outboxStates
  have pending : (settle response state).pending.filter
      (fun operation => decide (operation.operationId ∉ terminalIds response)) =
        (settle response state).pending :=
    List.filter_eq_self.mpr fun operation member => (List.mem_filter.mp member).2
  have tables : (settle response state).tables.applyAll response.changes = (settle response state).tables :=
    state.tables.applyAll_twice response.changes
  rw [reconcileReference_eq, if_neg inOrder]
  nth_rewrite 1 [settle]
  rw [states, pending, tables, insert_of_lookup current]
  rfl

end LocalState

/-- A response whose rejections and conflicts are empty, and no other, leaves the same state when it
is applied a second time. -/
theorem reconcile_idempotent_iff (accepted : reconcileReference response state = (once, .ok ())) :
    (reconcileReference response once = (once, .ok ()) ∧
        ∀ conflictResolutions, (reconcileReference response once).1.unresolvedConflictCount conflictResolutions =
          once.unresolvedConflictCount conflictResolutions) ↔
      response.rejected = [] ∧ response.conflicts = [] := by
  rw [reconcileReference_accepted accepted, reconcileReference_again]
  constructor
  · intro ⟨same, _⟩
    have rejections := congrArg (LocalState.rejections ∘ Prod.fst) same
    have conflicts := congrArg (LocalState.conflicts ∘ Prod.fst) same
    exact ⟨List.append_right_eq_self.mp rejections, List.append_right_eq_self.mp conflicts⟩
  · intro ⟨rejections, conflicts⟩
    have same : { settle response state with
        rejections := state.rejections ++ response.rejected ++ response.rejected
        conflicts := state.conflicts ++ response.conflicts ++ response.conflicts } =
          settle response state := by
      simp only [rejections, conflicts, List.append_nil, settle]
    rw [same]
    exact ⟨rfl, fun _ => rfl⟩

/-- A response that settles one operation and reports nothing else. -/
def exampleSettlement (conflicts : List Conflict) : SyncResponse where
  protocol := 1
  directive := .continue
  acknowledged := []
  rejected := []
  conflicts
  changes := []
  nextCursor := .legacy ⟨5⟩ 3
  hasMore := false
  serverTime := { physicalMs := 0, logical := 0, node := ⟨1⟩ }

theorem reconcile_idempotent_iff_quiet : (reconcileReference (exampleSettlement []) .default).2 = .ok () ∧
      reconcileReference (exampleSettlement [])
          (reconcileReference (exampleSettlement []) .default).1 =
        ((reconcileReference (exampleSettlement []) .default).1, .ok ()) :=
  ⟨rfl, ((@reconcile_idempotent_iff (exampleSettlement []) .default _ rfl).mpr ⟨rfl, rfl⟩).1⟩

/-- The conflict is counted once more each time the response is applied. -/
theorem reconcile_repeats_conflict :
    let conflict : Conflict := { operationId := ⟨9⟩, entity := { entityType := 1, entityId := ⟨2⟩ }
                                 clientBase := some 1, serverVersion := some 2
                                 policy := .manualResolution, message := "concurrent edit" }
    let once := (reconcileReference (exampleSettlement [conflict]) .default).1
    let twice := (reconcileReference (exampleSettlement [conflict]) once).1
    (reconcileReference (exampleSettlement [conflict]) .default).2 = .ok () ∧
      (reconcileReference (exampleSettlement [conflict]) once).2 = .ok () ∧
      once.unresolvedConflictCount ∅ = 1 ∧ twice.unresolvedConflictCount ∅ = 2 := by
  decide +kernel

section
variable (refused : stageReferenceSnapshot page state = (next, .error error))
include refused

theorem stageReferenceSnapshot_refused :
    next = { state with
      stagedSnapshots := state.stagedSnapshots.insert page.cursor.scope
        (state.stagedSnapshots[page.cursor.scope]?.getD
          { progress := { snapshotId := page.snapshotId, cursor := page.cursor, nextOffset := 0 }
            entities := [] }) } := by
  unfold stageReferenceSnapshot at refused
  dsimp only at refused
  split at refused
  · exact (congrArg Prod.fst refused).symm
  · split at refused <;> cases refused

/-- A refused page leaves the state as it was exactly when a snapshot of its scope was being staged. -/
theorem stage_failure_frame_iff :
    (next = state ∧ ∀ scope, referenceClient.snapshotProgress scope next =
        referenceClient.snapshotProgress scope state) ↔
      page.cursor.scope ∈ state.stagedSnapshots := by
  have left := stageReferenceSnapshot_refused refused
  constructor
  · intro ⟨same, _⟩
    rw [← same, left]
    exact ExtTreeMap.mem_insert_self
  · intro staged
    obtain ⟨_, found⟩ := mem_iff_lookup.mp staged
    have same : next = state := by
      rw [left, found, Option.getD_some, insert_of_lookup found]
    exact ⟨same, fun scope => by rw [same]⟩

end

/-- An empty page in the middle of a snapshot. -/
def exampleSnapshotPage (offset : Nat) : BootstrapResponse where
  protocol := 1
  snapshotId := ⟨8⟩
  cursor := .legacy ⟨5⟩ 3
  offset
  entities := []
  nextOffset := offset
  hasMore := true
  serverTime := { physicalMs := 0, logical := 0, node := ⟨1⟩ }

theorem stage_failure_frame_iff_staged : let staged := (stageReferenceSnapshot (exampleSnapshotPage 0) .default).1
    (∃ error, (stageReferenceSnapshot (exampleSnapshotPage 4) staged).2 = .error error) ∧
      (stageReferenceSnapshot (exampleSnapshotPage 4) staged).1 = staged := by
  intro staged
  have refused : stageReferenceSnapshot (exampleSnapshotPage 4) staged =
      ((stageReferenceSnapshot (exampleSnapshotPage 4) staged).1,
        .error (.permanent "snapshot page does not match staged progress")) := rfl
  refine ⟨⟨_, congrArg Prod.snd refused⟩, ((stage_failure_frame_iff refused).mpr ?_).1⟩
  decide +kernel

/-- A refused page of a scope without staging starts one. -/
theorem stage_failure_starts_staging : let refused := stageReferenceSnapshot (exampleSnapshotPage 4) .default
    refused.2 = .error (.permanent "snapshot page does not match staged progress") ∧
      referenceClient.snapshotProgress ⟨5⟩ .default = none ∧
      referenceClient.snapshotProgress ⟨5⟩ refused.1 =
        some { snapshotId := ⟨8⟩, cursor := .legacy ⟨5⟩ 3, nextOffset := 0 } := by
  decide +kernel

end Aequora.Store
