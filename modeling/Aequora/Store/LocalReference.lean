import Aequora.Scope.State
import Aequora.Store.LocalStore
import Aequora.Store.ScopeTable

/-! The in-memory local store: reconciliation of a response and staging of snapshot
pages, and the replica of each scope it implements. -/

namespace Aequora.Store

open Std Aequora.Base Aequora.Protocol

/-- The life of an operation in a client's outbox. -/
inductive OutboxState where
  | pending | sending | acknowledged | rejected | conflict | retry
deriving DecidableEq

def OutboxState.isReplayable : OutboxState → Bool
  | .pending | .sending | .retry => true
  | _ => false

def OutboxState.isTerminal : OutboxState → Bool
  | .acknowledged | .rejected | .conflict => true
  | _ => false

theorem OutboxState.isTerminal_eq (state : OutboxState) : state.isTerminal = !state.isReplayable := by
  cases state <;> rfl

structure RetryMetadata where
  (attemptCount nextAttemptUnixMs : Nat)
deriving DecidableEq

structure SnapshotProgress where
  snapshotId : SnapshotId
  cursor : Cursor
  nextOffset : Nat
deriving DecidableEq

structure StagedSnapshot where
  progress : SnapshotProgress
  entities : List SnapshotEntity

structure LocalState where
  pending : List OperationEnvelope
  original : ExtTreeMap OperationId OperationEnvelope
  outboxStates : ExtTreeMap OperationId OutboxState
  retryMetadata : ExtTreeMap OperationId RetryMetadata
  cursors : ExtTreeMap SyncScopeId Cursor
  entities : ScopeTable
  processed : Finset (SyncScopeId × Sequence)
  rejections : List OperationRejection
  conflicts : List Conflict
  stagedSnapshots : ExtTreeMap SyncScopeId StagedSnapshot
  scopeState : Scope.LocalScopeState

def LocalState.default : LocalState where
  pending := []
  original := ∅
  outboxStates := ∅
  retryMetadata := ∅
  cursors := ∅
  entities := ∅
  processed := ∅
  rejections := []
  conflicts := []
  stagedSnapshots := ∅
  scopeState := .default

/-- Operations with a final result in the response. -/
def terminalIds (response : SyncResponse) : List OperationId :=
  response.acknowledged.map OperationAck.operationId ++
    response.rejected.map OperationRejection.operationId ++ response.conflicts.map Conflict.operationId

/-- Set the outbox state of all given operations. -/
def setOutbox (states : ExtTreeMap OperationId OutboxState) (operations : List OperationId)
    (terminal : OutboxState) : ExtTreeMap OperationId OutboxState :=
  operations.foldl (fun built operation => built.insert operation terminal) states

def LocalState.tables (state : LocalState) : AppliedTables :=
  { entities := state.entities, applied := state.processed }

def LocalState.applyChange (state : LocalState) (change : RemoteChange) : LocalState :=
  { state with
    processed := (state.tables.applyOnce change.scopeId change).applied
    entities := (state.tables.applyOnce change.scopeId change).entities }

def reconcileReference (response : SyncResponse) (state : LocalState) : LocalState × Except StoreError Unit :=
  let scope := response.nextCursor.scope
  if state.cursors[scope]?.any fun cursor => decide (cursor.sequence > response.nextCursor.sequence) then
    (state, .error (.permanent "cursor regression during reconciliation"))
  else
    let acknowledged := setOutbox state.outboxStates
      (response.acknowledged.map OperationAck.operationId) .acknowledged
    let rejected := setOutbox acknowledged
      (response.rejected.map OperationRejection.operationId) .rejected
    let settled : LocalState := { state with
      outboxStates := setOutbox rejected (response.conflicts.map Conflict.operationId) .conflict
      pending := state.pending.filter fun operation =>
        decide (operation.operationId ∉ terminalIds response) }
    let applied := response.changes.foldl LocalState.applyChange settled
    ({ applied with
      rejections := applied.rejections ++ response.rejected
      conflicts := applied.conflicts ++ response.conflicts
      cursors := applied.cursors.insert scope response.nextCursor }, .ok ())

/-- The staging entry of a scope is created even when the page is then refused. -/
def stageReferenceSnapshot (response : BootstrapResponse) (state : LocalState) :
    LocalState × Except StoreError Unit :=
  let scope := response.cursor.scope
  let staged := state.stagedSnapshots[scope]?.getD
    { progress := { snapshotId := response.snapshotId, cursor := response.cursor, nextOffset := 0 }
      entities := [] }
  if staged.progress.snapshotId ≠ response.snapshotId ∨ staged.progress.cursor ≠ response.cursor ∨
      staged.progress.nextOffset ≠ response.offset then
    ({ state with stagedSnapshots := state.stagedSnapshots.insert scope staged },
      .error (.permanent "snapshot page does not match staged progress"))
  else
    let extended : StagedSnapshot :=
      { progress := { staged.progress with nextOffset := response.nextOffset }
        entities := staged.entities ++ response.entities }
    if response.hasMore then
      ({ state with stagedSnapshots := state.stagedSnapshots.insert scope extended }, .ok ())
    else
      ({ state with
        stagedSnapshots := state.stagedSnapshots.erase scope
        entities := (state.entities.deleteScope scope).put scope extended.entities
        cursors := state.cursors.insert scope response.cursor }, .ok ())

def referenceStore : LocalStore LocalState Unit where
  reconcile _ := reconcileReference
  stageSnapshot _ := stageReferenceSnapshot

namespace LocalState

def view (state : LocalState) (scope : SyncScopeId) : Replica where
  cursor := state.cursors[scope]?
  content := state.tables.content scope
  staged := overwrite SnapshotEntity.entity id (fun _ => none)
    (state.stagedSnapshots[scope]?.elim [] StagedSnapshot.entities)

variable {state : LocalState} {scope : SyncScopeId}

theorem applyChanges_frame (changes : List RemoteChange) :
    (changes.foldl applyChange state).cursors = state.cursors ∧
      (changes.foldl applyChange state).stagedSnapshots = state.stagedSnapshots := by
  induction changes generalizing state with
  | nil => exact ⟨rfl, rfl⟩
  | cons _ _ ih => exact ih

/-- The changes of a response are applied once each in their scope and nowhere else. -/
theorem applyChanges_content {changes : List RemoteChange} (owned : ∀ change ∈ changes, change.scopeId = owner) :
    (changes.foldl applyChange state).tables.content scope =
      if owner = scope then changes.foldl
        (Marked.once RemoteChange.entity RemoteChange.snapshotEntity RemoteChange.sequence)
        (state.tables.content scope)
      else state.tables.content scope := by
  induction changes generalizing state with
  | nil => simp
  | cons change _ ih =>
    obtain ⟨mine, others⟩ := List.forall_mem_cons.mp owned
    have first : (state.applyChange change).tables.content scope =
        (state.tables.applyOnce owner change).content scope := by rw [← mine]; rfl
    rw [List.foldl_cons, ih others, first, AppliedTables.applyOnce_content]
    by_cases same : owner = scope <;> simp [same]

theorem reconcileReference_view {response : SyncResponse} (formed : WellFormed response) :
    (reconcileReference response state).1.view scope =
      if (reconcileReference response state).2 = .ok () ∧ response.nextCursor.scope = scope then
        (state.view scope).reconcile response
      else state.view scope := by
  unfold reconcileReference
  dsimp only
  split
  · simp
  · have owned : ∀ change ∈ response.changes, change.scopeId = response.nextCursor.scope :=
      fun change member => (formed change member).1
    by_cases same : response.nextCursor.scope = scope
    · subst scope
      rw [if_pos ⟨rfl, rfl⟩]
      ext1
      · simp [view, Replica.reconcile]
      · exact (applyChanges_content owned).trans (if_pos rfl)
      · simp only [view, Replica.reconcile, (applyChanges_frame _).2]
    · rw [if_neg fun accepted => same accepted.2]
      ext1
      · simp only [view, (applyChanges_frame _).1, lookup_insert, if_neg same]
      · exact (applyChanges_content owned).trans (if_neg same)
      · simp only [view, (applyChanges_frame _).2]

theorem view_stageEntry (owner : SyncScopeId) (entry : StagedSnapshot) :
    { state with stagedSnapshots := state.stagedSnapshots.insert owner entry }.view scope =
      if owner = scope then
        { state.view scope with staged := overwrite SnapshotEntity.entity id (fun _ => none) entry.entities }
      else state.view scope := by
  by_cases same : owner = scope
  · subst scope
    rw [if_pos rfl]
    ext1
    · rfl
    · rfl
    · simp [view]
  · simp only [view, lookup_insert, if_neg same]
    rfl

theorem view_installEntities (owner : SyncScopeId) (entities : List SnapshotEntity) (cursor : Cursor) :
    { state with
      stagedSnapshots := state.stagedSnapshots.erase owner
      entities := (state.entities.deleteScope owner).put owner entities
      cursors := state.cursors.insert owner cursor }.view scope =
      if owner = scope then
        { cursor := some cursor
          content := { (state.view scope).content with
            table := overwrite SnapshotEntity.entity id (fun _ => none) entities }
          staged := fun _ => none }
      else state.view scope := by
  by_cases same : owner = scope
  · subst scope
    rw [if_pos rfl]
    ext1
    · simp [view]
    · ext1
      · simp [view, AppliedTables.content, tables, ScopeTable.part_put, ScopeTable.part_deleteScope]
      · rfl
    · simp [view]
  · rw [if_neg same]
    ext1
    · simp only [view, lookup_insert, if_neg same]
    · ext1
      · simp only [view, AppliedTables.content, tables, ScopeTable.part_put, ScopeTable.part_deleteScope,
          if_neg same]
      · rfl
    · simp [view, ExtTreeMap.getElem?_erase, same]

theorem stageReferenceSnapshot_view : (stageReferenceSnapshot page state).1.view scope =
      if (stageReferenceSnapshot page state).2 = .ok () ∧ page.cursor.scope = scope then
        (state.view scope).stage page
      else state.view scope := by
  -- What is staged for the page's scope, also when the entry was only just created.
  have staged : overwrite SnapshotEntity.entity id (fun _ => none)
      (state.stagedSnapshots[page.cursor.scope]?.getD
        { progress := { snapshotId := page.snapshotId, cursor := page.cursor, nextOffset := 0 }
          entities := [] }).entities = (state.view page.cursor.scope).staged := by
    unfold view
    cases state.stagedSnapshots[page.cursor.scope]? <;> rfl
  unfold stageReferenceSnapshot
  dsimp only
  split
  · rw [if_neg fun accepted => nomatch accepted.1]
    refine (view_stageEntry _ _).trans ?_
    split
    · subst scope
      rw [staged]
    · rfl
  · cases more : page.hasMore with
    | true =>
      rw [if_pos rfl]
      refine (view_stageEntry _ _).trans ?_
      by_cases same : page.cursor.scope = scope
      · subst scope
        simp [Replica.stage, more, overwrite_append, staged]
      · simp only [same, and_false, if_false]
    | false =>
      rw [if_neg Bool.false_ne_true]
      refine (view_installEntities _ _ _).trans ?_
      by_cases same : page.cursor.scope = scope
      · subst scope
        simp [Replica.stage, more, overwrite_append, staged]
      · simp only [same, and_false, if_false]

theorem reconcileReference_onward (accepted : (reconcileReference response state).2 = .ok ()) :
    (state.view response.nextCursor.scope).cursor.elim 0 Cursor.sequence ≤ response.nextCursor.sequence := by
  unfold reconcileReference at accepted
  dsimp only at accepted
  split at accepted
  · cases accepted
  · rename_i inOrder
    unfold view
    cases found : state.cursors[response.nextCursor.scope]? with
    | none => exact Nat.zero_le _
    | some _ => simpa [found] using inOrder

/-- The in-memory store implements the replica of every scope. -/
def referenceRefinement : Refinement referenceStore where
  view
  reconcile _ _ _ _ formed := reconcileReference_view formed
  onward _ _ _ _ accepted := reconcileReference_onward accepted
  stage _ _ _ _ := stageReferenceSnapshot_view

end LocalState

end Aequora.Store
