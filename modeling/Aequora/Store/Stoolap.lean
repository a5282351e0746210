import Aequora.Store.SqlTables

/-! The Stoolap local store. Beyond the SQLite store it checks a coordination fence, the trusted
authority, and the timeline before the sequence. -/

namespace Aequora.Store

open Std Aequora.Base Aequora.Protocol ScopeTable AppliedTables

/-- The outcome of the coordination fence, the snapshot hooks, and what the engine says of a row
that violates a check of the schema. -/
structure StoolapSurroundings extends SqlSurroundings String where
  fence : Except StoreError Unit
  (beginSnapshot finishSnapshot : SyncScopeId → Except StoreError Unit)
  checkViolation : String

structure StoolapConflictRow where
  detail : String
  resolved : Bool
  resolutionDetail : Option String

structure AuthorityTrust where
  authorityId : AuthorityId
  highestEpoch : AuthorityEpoch

structure StoolapTables where
  outbox : OutboxTable String Unit
  retrySchedule : ExtTreeMap OperationId RetryMetadata
  cursors : ExtTreeMap SyncScopeId Cursor
  appliedEvents : Finset (SyncScopeId × Sequence)
  conflicts : ExtTreeMap OperationId StoolapConflictRow
  localEntities : ScopeTable
  snapshotProgress : ExtTreeMap SyncScopeId SnapshotProgress
  snapshotStaging : ScopeTable
  authorityTrust : Option AuthorityTrust
  scopeState : Scope.LocalScopeState
  scopeQuarantine : ExtTreeMap OperationId Scope.PendingIntentDisposition

def StoolapTables.empty : StoolapTables where
  outbox := ∅
  retrySchedule := ∅
  cursors := ∅
  appliedEvents := ∅
  conflicts := ∅
  localEntities := ∅
  snapshotProgress := ∅
  snapshotStaging := ∅
  authorityTrust := none
  scopeState := .default
  scopeQuarantine := ∅

def stoolapRange (field : String) : StoreError := .permanent (field ++ " exceeds Stoolap INTEGER range")

def stoolapError (error : String) : StoreError := .transient ("Stoolap operation failed: " ++ error)

/-- Trust the first authority seen, and of it only epochs that do not fall. -/
def validateAuthorityTrust (trust : Option AuthorityTrust) (cursor : Cursor) :
    Except StoreError (Option AuthorityTrust) := do
  if cursor.authorityId = AuthorityId.legacyUnbound then return trust
  match trust with
  | none =>
    let epoch ← toI64 cursor.authorityEpoch (stoolapRange "trusted authority epoch")
    return some { authorityId := cursor.authorityId, highestEpoch := epoch }
  | some current =>
    if current.authorityId ≠ cursor.authorityId then
      throw (.permanent "Stoolap local store rejected a different authority identity")
    if cursor.authorityEpoch < current.highestEpoch then
      throw (.permanent "Stoolap local store detected authority epoch rollback")
    if cursor.authorityEpoch > current.highestEpoch then
      let epoch ← toI64 cursor.authorityEpoch (stoolapRange "trusted authority epoch")
      return some { current with highestEpoch := epoch }
    return trust

namespace StoolapTables
variable (tables : StoolapTables)

def applied : AppliedTables :=
  { entities := tables.localEntities, applied := tables.appliedEvents }

def validateCursor (next : Cursor) : Except StoreError Unit :=
  match tables.cursors[next.scope]? with
  | none => .ok ()
  | some current =>
    if current.authorityId ≠ AuthorityId.legacyUnbound ∧
        (next.authorityId ≠ current.authorityId ∨ next.authorityEpoch ≠ current.authorityEpoch) then
      .error (.permanent "Stoolap incremental reconciliation cannot cross authority timelines")
    else if next.sequence < current.sequence then
      .error (.permanent "Stoolap reconciliation cursor would regress")
    else .ok ()

section
variable (around : StoolapSurroundings)

/-- The change is applied under the scope of the response, whatever scope it names itself; a
marker of sequence zero violates the schema. -/
def applyChange (scope : SyncScopeId) (change : RemoteChange) :
    Except StoreError StoolapTables := do
  let _ ← toI64 change.sequence (stoolapRange "change sequence")
  if (scope, change.sequence) ∈ tables.appliedEvents then
    return tables
  else
    let _ ← toI64 change.version (stoolapRange "entity version")
    around.applyChange scope change
    if change.sequence = 0 then throw (stoolapError around.checkViolation)
    return { tables with
      appliedEvents := (tables.applied.applyOnce scope change).applied
      localEntities := (tables.applied.applyOnce scope change).entities }

def setTerminal (operation : OperationId) (state : OutboxState) (detail : String) : StoolapTables :=
  { tables with outbox := updateTerminal tables.outbox operation state detail }

def acknowledge (ack : OperationAck) : Except StoreError StoolapTables := do
  let detail ← around.encodeAck ack
  return tables.setTerminal ack.operationId .acknowledged detail

def reject (rejection : OperationRejection) :
    Except StoreError StoolapTables := do
  let detail ← around.encodeRejection rejection
  return tables.setTerminal rejection.operationId .rejected detail

/-- A conflict already recorded is opened again with the new detail. -/
def putConflict (conflict : Conflict) (detail : String) : StoolapTables :=
  { tables with
    conflicts := tables.conflicts.insert conflict.operationId
      { detail, resolved := false, resolutionDetail := none } }

def recordConflict (conflict : Conflict) :
    Except StoreError StoolapTables := do
  let detail ← around.encodeConflict conflict
  return (tables.setTerminal conflict.operationId .conflict detail).putConflict conflict detail

def setCursor (cursor : Cursor) : Except StoreError StoolapTables := do
  let _ ← toI64 cursor.sequence (stoolapRange "cursor sequence")
  let _ ← toI64 cursor.authorityEpoch (stoolapRange "cursor authority epoch")
  return { tables with cursors := tables.cursors.insert cursor.scope cursor }

def reconcile (response : SyncResponse) :
    Except StoreError StoolapTables := do
  around.fence
  tables.validateCursor response.nextCursor
  let trust ← validateAuthorityTrust tables.authorityTrust response.nextCursor
  let applied ← response.changes.foldlM (applyChange · around response.nextCursor.scope)
    { tables with authorityTrust := trust }
  let acknowledged ← response.acknowledged.foldlM (acknowledge · around) applied
  let rejected ← response.rejected.foldlM (reject · around) acknowledged
  let conflicting ← response.conflicts.foldlM (recordConflict · around) rejected
  conflicting.setCursor response.nextCursor

end

/-- A page continues the staged snapshot; one that starts a snapshot clears what was staged. -/
def openStaging (page : BootstrapResponse) : Except StoreError ScopeTable :=
  match tables.snapshotProgress[page.cursor.scope]? with
  | some progress =>
    if progress.snapshotId ≠ page.snapshotId ∨ progress.nextOffset ≠ page.offset then
      .error (.permanent "Stoolap snapshot page does not match durable staging progress")
    else .ok tables.snapshotStaging
  | none =>
    if page.offset ≠ 0 then
      .error (.permanent "Stoolap snapshot staging must begin at offset zero")
    else .ok (tables.snapshotStaging.deleteScope page.cursor.scope)

def putSnapshotProgress (progress : SnapshotProgress) : Except StoreError StoolapTables := do
  let _ ← toI64 progress.cursor.sequence (stoolapRange "snapshot cursor")
  let _ ← toI64 progress.nextOffset (stoolapRange "snapshot offset")
  let _ ← toI64 progress.cursor.authorityEpoch (stoolapRange "snapshot authority epoch")
  return { tables with
    snapshotProgress := tables.snapshotProgress.insert progress.cursor.scope progress }

section
variable (around : StoolapSurroundings) (page : BootstrapResponse)

/-- Replace the entities of the scope by the staged ones; markers of applied changes stay. -/
def installSnapshot :
    Except StoreError StoolapTables := do
  let scope := page.cursor.scope
  around.beginSnapshot scope
  (tables.snapshotStaging.rows scope).forM (around.applySnapshotEntity scope)
  around.finishSnapshot scope
  { tables with
    localEntities := (tables.localEntities.deleteScope scope).copyScope tables.snapshotStaging scope
    snapshotStaging := tables.snapshotStaging.deleteScope scope
    snapshotProgress := tables.snapshotProgress.erase scope }.setCursor page.cursor

def stageSnapshot :
    Except StoreError StoolapTables := do
  around.fence
  let trust ← validateAuthorityTrust tables.authorityTrust page.cursor
  let opened ← tables.openStaging page
  let staging ← page.entities.foldlM
    (putRow · page.cursor.scope (stoolapRange "entity version")) opened
  let staged := { tables with authorityTrust := trust, snapshotStaging := staging }
  if page.hasMore then
    staged.putSnapshotProgress
      { snapshotId := page.snapshotId, cursor := page.cursor, nextOffset := page.nextOffset }
  else staged.installSnapshot around page

end

/-- Rows left in staging without progress are as good as gone: the next page clears them. -/
def view (scope : SyncScopeId) : Replica where
  cursor := tables.cursors[scope]?
  content := tables.applied.content scope
  staged := if (tables.snapshotProgress[scope]?).isSome then tables.snapshotStaging.part scope else fun _ => none

variable {tables} {next : StoolapTables}

theorem applyChange_eq (applied : tables.applyChange around owner change = .ok next) :
    next = { tables with
      appliedEvents := (tables.applied.applyOnce owner change).applied
      localEntities := (tables.applied.applyOnce owner change).entities } := by
  rw [applyChange, bind_eq_ok_iff] at applied
  obtain ⟨_, _, applied⟩ := applied
  split at applied
  · rename_i held
    cases applied
    simp [applyOnce, StoolapTables.applied, held]
  · simp only [bind_eq_ok_iff] at applied
    obtain ⟨_, _, _, _, applied⟩ := applied
    split at applied
    · cases applied
    · cases applied
      rfl

theorem applyChange_view (applied : tables.applyChange around owner change = .ok next) :
    next.view scope = if owner = scope then (tables.view scope).apply change else tables.view scope := by
  have content : next.view scope =
      { tables.view scope with content := (tables.applied.applyOnce owner change).content scope } := by
    rw [applyChange_eq applied]
    rfl
  rw [content, applyOnce_content]
  split
  · rfl
  · rfl

theorem setCursor_view (written : tables.setCursor cursor = .ok next) :
    next.view scope = if cursor.scope = scope then { tables.view scope with cursor := some cursor }
      else tables.view scope := by
  simp only [setCursor, bind_eq_ok_iff] at written
  obtain ⟨_, _, _, _, written⟩ := written
  cases written
  by_cases same : cursor.scope = scope
  · simp [view, same, applied]
  · simp [view, lookup_insert, same, applied]

theorem validateCursor_onward (valid : tables.validateCursor cursor = .ok ()) :
    (tables.view cursor.scope).cursor.elim 0 Cursor.sequence ≤ cursor.sequence := by
  unfold validateCursor at valid
  unfold view
  cases found : tables.cursors[cursor.scope]? with
  | none => exact Nat.zero_le _
  | some _ =>
    simp only [found] at valid
    split at valid
    · cases valid
    · split at valid
      · cases valid
      · rename_i inOrder
        exact Nat.le_of_not_lt inOrder

/-- The verdicts of a response keep what terminal states and recorded conflicts keep. -/
theorem reconcile_eq (reconciled : tables.reconcile around response = .ok next) :
    tables.validateCursor response.nextCursor = .ok () ∧ ∃ trust applied settled,
      response.changes.foldlM (applyChange · around response.nextCursor.scope)
        { tables with authorityTrust := trust } = .ok applied ∧
      settled.setCursor response.nextCursor = .ok next ∧
      ∀ holds : StoolapTables → Prop,
        (∀ tables operation state detail, holds tables → holds (setTerminal tables operation state detail)) →
        (∀ tables conflict detail, holds tables → holds (putConflict tables conflict detail)) →
        holds applied → holds settled := by
  simp only [reconcile, bind_eq_ok_iff] at reconciled
  obtain ⟨_, _, _, valid, trust, _, applied, changes, _, acks, _, rejections, settled, conflicts,
    written⟩ := reconciled
  refine ⟨valid, trust, applied, settled, changes, written, fun holds terminal recorded held => ?_⟩
  replace held := foldlM_invariant holds held (fun _ _ _ _ held settled => by
    obtain ⟨_, _, ⟨⟩⟩ := bind_eq_ok_iff.mp settled
    exact terminal _ _ _ _ held) acks
  replace held := foldlM_invariant holds held (fun _ _ _ _ held settled => by
    obtain ⟨_, _, ⟨⟩⟩ := bind_eq_ok_iff.mp settled
    exact terminal _ _ _ _ held) rejections
  exact foldlM_invariant holds held (fun _ _ _ _ held settled => by
    obtain ⟨_, _, ⟨⟩⟩ := bind_eq_ok_iff.mp settled
    exact recorded _ _ _ (terminal _ _ _ _ held)) conflicts

theorem reconcile_view (reconciled : tables.reconcile around response = .ok next) :
    (tables.view response.nextCursor.scope).cursor.elim 0 Cursor.sequence ≤ response.nextCursor.sequence ∧
      ∀ scope, next.view scope = if response.nextCursor.scope = scope then
        (tables.view scope).reconcile response else tables.view scope := by
  obtain ⟨valid, _, applied, settled, changes, written, kept⟩ := reconcile_eq reconciled
  refine ⟨validateCursor_onward valid, fun scope => ?_⟩
  have content := foldlM_apply_view (view · scope) (fun _ _ _ _ => applyChange_view) changes
  have same : settled.view scope = applied.view scope :=
    kept (·.view scope = applied.view scope) (fun _ _ _ _ => id) (fun _ _ _ => id) rfl
  rw [setCursor_view written, same, content]
  by_cases same : response.nextCursor.scope = scope
  · simp only [if_pos same, Replica.foldl_apply]
    rfl
  · simp only [if_neg same]
    rfl

theorem openStaging_part (staging : tables.openStaging page = .ok opened) :
    opened.part page.cursor.scope = (tables.view page.cursor.scope).staged ∧
      ∀ scope, page.cursor.scope ≠ scope → opened.part scope = tables.snapshotStaging.part scope := by
  unfold openStaging at staging
  unfold view
  cases found : tables.snapshotProgress[page.cursor.scope]? with
  | some _ =>
    simp only [found] at staging
    split at staging
    · cases staging
    · cases staging
      exact ⟨rfl, fun _ _ => rfl⟩
  | none =>
    simp only [found] at staging
    split at staging
    · cases staging
    · cases staging
      refine ⟨by simp [part_deleteScope], fun scope other => ?_⟩
      rw [part_deleteScope, if_neg other]

theorem stageSnapshot_view (staged : tables.stageSnapshot around page = .ok next) (scope : SyncScopeId) :
    next.view scope = if page.cursor.scope = scope then (tables.view scope).stage page
      else tables.view scope := by
  simp only [stageSnapshot, bind_eq_ok_iff] at staged
  obtain ⟨_, _, _, _, _, staging, _, entities, staged⟩ := staged
  obtain ⟨here, elsewhere⟩ := openStaging_part staging
  rw [foldlM_putRow entities] at staged
  cases more : page.hasMore with
  | true =>
    simp only [more, if_true, putSnapshotProgress, bind_eq_ok_iff] at staged
    obtain ⟨_, _, _, _, _, _, staged⟩ := staged
    cases staged
    by_cases same : page.cursor.scope = scope
    · subst scope
      simp [view, Replica.stage, more, part_put, applied, here]
    · simp [view, lookup_insert, same, part_put, applied, elsewhere scope same]
  | false =>
    simp only [more, Bool.false_eq_true, if_false, installSnapshot, bind_eq_ok_iff] at staged
    obtain ⟨_, _, _, _, _, _, staged⟩ := staged
    rw [setCursor_view staged]
    by_cases same : page.cursor.scope = scope
    · subst scope
      simp only [view, applied, Replica.stage, more, if_true, Bool.false_eq_true, if_false,
        content_table, part_copyScope, part_deleteScope,
        part_put, here]
      simp
    · have kept : (tables.snapshotProgress.erase page.cursor.scope)[scope]? =
          tables.snapshotProgress[scope]? := by simp [ExtTreeMap.getElem?_erase, same]
      simp only [view, applied, same, if_false, content_table, part_copyScope,
        part_deleteScope, part_put, elsewhere scope same, kept]

end StoolapTables

def stoolapStore : LocalStore StoolapTables StoolapSurroundings :=
  .ofTransactions (fun around response tables => tables.reconcile around response)
    fun around page tables => tables.stageSnapshot around page

def StoolapTables.refinement : Refinement stoolapStore :=
  .ofTransactions view (fun _ => reconcile_view)
    fun staged => stageSnapshot_view staged

end Aequora.Store
