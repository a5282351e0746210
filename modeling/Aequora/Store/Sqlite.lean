import Aequora.Store.SqlTables

/-! The SQLite local store. Every call is one immediate transaction; a row the schema refuses and a
value outside the integer range end it. -/

namespace Aequora.Store

open Std Aequora.Base Aequora.Protocol ScopeTable AppliedTables

structure SqliteSurroundings extends SqlSurroundings (List UInt8) where
  now : Nat

structure SqliteConflictRow where
  detail : List UInt8
  resolution : Option String
  createdAtUnixMs : Nat

structure SqliteTables where
  operationOutbox : OutboxTable (List UInt8) RetryMetadata
  syncCursor : ExtTreeMap SyncScopeId Cursor
  appliedAuthoritativeChange : Finset (SyncScopeId × Sequence)
  localEntity : ScopeTable
  conflictLedger : ExtTreeMap OperationId SqliteConflictRow
  snapshotProgress : ExtTreeMap SyncScopeId SnapshotProgress
  snapshotStaging : ScopeTable

def SqliteTables.empty : SqliteTables where
  operationOutbox := ∅
  syncCursor := ∅
  appliedAuthoritativeChange := ∅
  localEntity := ∅
  conflictLedger := ∅
  snapshotProgress := ∅
  snapshotStaging := ∅

def sqliteRange (name : String) : StoreError := .permanent (name ++ " exceeds SQLite range")

namespace SqliteTables
variable (tables : SqliteTables)

def applied : AppliedTables :=
  { entities := tables.localEntity, applied := tables.appliedAuthoritativeChange }

def validateCursor (next : Cursor) : Except StoreError Unit :=
  match tables.syncCursor[next.scope]? with
  | none => .ok ()
  | some current =>
    if current.sequence > next.sequence then
      .error (.permanent "SQLite reconciliation cursor would regress")
    else if current.authorityId ≠ AuthorityId.legacyUnbound ∧
        (current.authorityId ≠ next.authorityId ∨ current.authorityEpoch ≠ next.authorityEpoch) then
      .error (.permanent "SQLite incremental reconciliation cannot cross authority timelines")
    else .ok ()

/-- Insert the marker or ignore it; a new marker applies the change. The table admits no marker of
sequence zero, which `INSERT OR IGNORE` passes over. -/
def applyChange (around : SqliteSurroundings) (change : RemoteChange) : Except StoreError SqliteTables := do
  let _ ← toI64 change.sequence (sqliteRange "change sequence")
  if change.sequence = 0 ∨ (change.scopeId, change.sequence) ∈ tables.appliedAuthoritativeChange then
    return tables
  else
    let _ ← toI64 change.version (sqliteRange "entity version")
    around.applyChange change.scopeId change
    return { tables with
      appliedAuthoritativeChange := (tables.applied.applyOnce change.scopeId change).applied
      localEntity := (tables.applied.applyOnce change.scopeId change).entities }

def terminalOutbox (operation : OperationId) (state : OutboxState) (detail : List UInt8) : SqliteTables :=
  { tables with operationOutbox := updateTerminal tables.operationOutbox operation state detail }

section
variable (around : SqliteSurroundings)

def acknowledge (ack : OperationAck) : Except StoreError SqliteTables := do
  let detail ← around.encodeAck ack
  return tables.terminalOutbox ack.operationId .acknowledged detail

def reject (rejection : OperationRejection) :
    Except StoreError SqliteTables := do
  let detail ← around.encodeRejection rejection
  return tables.terminalOutbox rejection.operationId .rejected detail

/-- A conflict already in the ledger keeps its resolution and time. -/
def recordConflict (conflict : Conflict) : Except StoreError SqliteTables := do
  let detail ← around.encodeConflict conflict
  let createdAt ← toI64 around.now (sqliteRange "conflict time")
  let row := match tables.conflictLedger[conflict.operationId]? with
    | none => { detail, resolution := none, createdAtUnixMs := createdAt }
    | some existing => { existing with detail }
  return { tables with conflictLedger := tables.conflictLedger.insert conflict.operationId row }.terminalOutbox
    conflict.operationId .conflict []

def writeCursor (cursor : Cursor) : Except StoreError SqliteTables := do
  let _ ← toI64 cursor.authorityEpoch (sqliteRange "authority epoch")
  let _ ← toI64 cursor.sequence (sqliteRange "cursor sequence")
  let _ ← toI64 around.now (sqliteRange "cursor update time")
  return { tables with syncCursor := tables.syncCursor.insert cursor.scope cursor }

def reconcile (response : SyncResponse) : Except StoreError SqliteTables := do
  tables.validateCursor response.nextCursor
  let applied ← response.changes.foldlM (applyChange · around) tables
  let acknowledged ← response.acknowledged.foldlM (acknowledge · around) applied
  let rejected ← response.rejected.foldlM (reject · around) acknowledged
  let conflicting ← response.conflicts.foldlM (recordConflict · around) rejected
  conflicting.writeCursor around response.nextCursor

end

/-- A page continues the staged snapshot or starts one. -/
def checkPage (page : BootstrapResponse) : Except StoreError Unit :=
  match tables.snapshotProgress[page.cursor.scope]? with
  | some current =>
    if current.snapshotId ≠ page.snapshotId ∨ current.nextOffset ≠ page.offset then
      .error (.permanent "SQLite snapshot resume identity or offset mismatch")
    else .ok ()
  | none =>
    if page.offset ≠ 0 then .error (.permanent "SQLite snapshot must start at offset zero") else .ok ()

def writeSnapshotProgress (page : BootstrapResponse) : Except StoreError SqliteTables := do
  let _ ← toI64 page.cursor.authorityEpoch (sqliteRange "snapshot authority epoch")
  let _ ← toI64 page.cursor.sequence (sqliteRange "snapshot cursor")
  let _ ← toI64 page.nextOffset (sqliteRange "snapshot offset")
  return { tables with
    snapshotProgress := tables.snapshotProgress.insert page.cursor.scope
      { snapshotId := page.snapshotId, cursor := page.cursor, nextOffset := page.nextOffset } }

section
variable (around : SqliteSurroundings) (page : BootstrapResponse)

/-- Replace the entities of the scope by the staged ones; markers of applied changes stay. -/
def installSnapshot :
    Except StoreError SqliteTables := do
  let scope := page.cursor.scope
  (tables.snapshotStaging.rows scope).forM (around.applySnapshotEntity scope)
  { tables with
    localEntity := (tables.localEntity.deleteScope scope).copyScope tables.snapshotStaging scope
    snapshotStaging := tables.snapshotStaging.deleteScope scope
    snapshotProgress := tables.snapshotProgress.erase scope }.writeCursor around page.cursor

def stageSnapshot :
    Except StoreError SqliteTables := do
  tables.checkPage page
  let staging ← page.entities.foldlM
    (putRow · page.cursor.scope (sqliteRange "snapshot version")) tables.snapshotStaging
  let staged := { tables with snapshotStaging := staging }
  if page.hasMore then staged.writeSnapshotProgress page else staged.installSnapshot around page

end

def view (scope : SyncScopeId) : Replica where
  cursor := tables.syncCursor[scope]?
  content := tables.applied.content scope
  staged := tables.snapshotStaging.part scope

variable {tables} {next : SqliteTables} {around : SqliteSurroundings}

theorem applyChange_view (formed : change.scopeId = owner ∧ 0 < change.sequence)
    (applied : tables.applyChange around change = .ok next) :
    next.view scope = if owner = scope then (tables.view scope).apply change else tables.view scope := by
  obtain ⟨rfl, positive⟩ := formed
  have content : next.view scope =
      { tables.view scope with content := (tables.applied.applyOnce change.scopeId change).content scope } := by
    rw [applyChange, bind_eq_ok_iff] at applied
    obtain ⟨_, _, applied⟩ := applied
    split at applied
    · rename_i marked
      have held := marked.resolve_left positive.ne'
      cases applied
      simp [view, applyOnce, SqliteTables.applied, held]
    · simp only [bind_eq_ok_iff] at applied
      obtain ⟨_, _, _, _, applied⟩ := applied
      cases applied
      rfl
  rw [content, applyOnce_content]
  split
  · rfl
  · rfl

theorem writeCursor_view (written : tables.writeCursor around cursor = .ok next) :
    next.view scope = if cursor.scope = scope then { tables.view scope with cursor := some cursor }
      else tables.view scope := by
  simp only [writeCursor, bind_eq_ok_iff] at written
  obtain ⟨_, _, _, _, _, _, written⟩ := written
  cases written
  by_cases same : cursor.scope = scope
  · simp [view, same, applied]
  · simp [view, lookup_insert, same, applied]

theorem validateCursor_onward (valid : tables.validateCursor cursor = .ok ()) :
    (tables.view cursor.scope).cursor.elim 0 Cursor.sequence ≤ cursor.sequence := by
  unfold validateCursor at valid
  unfold view
  cases found : tables.syncCursor[cursor.scope]? with
  | none => exact Nat.zero_le _
  | some _ =>
    simp only [found] at valid
    split at valid
    · cases valid
    · rename_i inOrder
      exact Nat.le_of_not_lt inOrder

/-- The verdicts of a response keep what terminal states and the ledger keep. -/
theorem reconcile_eq (reconciled : tables.reconcile around response = .ok next) :
    tables.validateCursor response.nextCursor = .ok () ∧ ∃ applied settled,
      response.changes.foldlM (applyChange · around) tables = .ok applied ∧
      settled.writeCursor around response.nextCursor = .ok next ∧
      ∀ holds : SqliteTables → Prop,
        (∀ tables operation state detail, holds tables → holds (terminalOutbox tables operation state detail)) →
        (∀ tables ledger, holds tables → holds { tables with conflictLedger := ledger }) →
        holds applied → holds settled := by
  simp only [reconcile, bind_eq_ok_iff] at reconciled
  obtain ⟨_, valid, applied, changes, _, acks, _, rejections, settled, conflicts, written⟩ := reconciled
  refine ⟨valid, applied, settled, changes, written, fun holds terminal recorded held => ?_⟩
  replace held := foldlM_invariant holds held (fun _ _ _ _ held settled => by
    obtain ⟨_, _, ⟨⟩⟩ := bind_eq_ok_iff.mp settled
    exact terminal _ _ _ _ held) acks
  replace held := foldlM_invariant holds held (fun _ _ _ _ held settled => by
    obtain ⟨_, _, ⟨⟩⟩ := bind_eq_ok_iff.mp settled
    exact terminal _ _ _ _ held) rejections
  refine foldlM_invariant holds held (fun _ _ _ _ held settled => ?_) conflicts
  simp only [recordConflict, bind_eq_ok_iff] at settled
  obtain ⟨_, _, _, _, ⟨⟩⟩ := settled
  exact terminal _ _ _ _ (recorded _ _ held)

theorem reconcile_view (formed : WellFormed response) (reconciled : tables.reconcile around response = .ok next) :
    (tables.view response.nextCursor.scope).cursor.elim 0 Cursor.sequence ≤ response.nextCursor.sequence ∧
      ∀ scope, next.view scope = if response.nextCursor.scope = scope then
        (tables.view scope).reconcile response else tables.view scope := by
  obtain ⟨valid, applied, settled, changes, written, kept⟩ := reconcile_eq reconciled
  refine ⟨validateCursor_onward valid, fun scope => ?_⟩
  have content := foldlM_apply_view (view · scope)
    (fun change member _ _ => applyChange_view (formed change member)) changes
  have same : settled.view scope = applied.view scope :=
    kept (·.view scope = applied.view scope) (fun _ _ _ _ => id) (fun _ _ => id) rfl
  rw [writeCursor_view written, same, content]
  by_cases same : response.nextCursor.scope = scope
  · simp only [if_pos same, Replica.foldl_apply]
    rfl
  · simp only [if_neg same]

theorem stageSnapshot_view (staged : tables.stageSnapshot around page = .ok next) (scope : SyncScopeId) :
    next.view scope = if page.cursor.scope = scope then (tables.view scope).stage page
      else tables.view scope := by
  simp only [stageSnapshot, bind_eq_ok_iff] at staged
  obtain ⟨_, _, _, entities, staged⟩ := staged
  rw [foldlM_putRow entities] at staged
  cases more : page.hasMore with
  | true =>
    simp only [more, if_true, writeSnapshotProgress, bind_eq_ok_iff] at staged
    obtain ⟨_, _, _, _, _, _, staged⟩ := staged
    cases staged
    by_cases same : page.cursor.scope = scope
    · simp [view, Replica.stage, more, same, part_put, applied]
    · simp [view, same, part_put, applied]
  | false =>
    simp only [more, Bool.false_eq_true, if_false, installSnapshot, bind_eq_ok_iff] at staged
    obtain ⟨_, _, staged⟩ := staged
    rw [writeCursor_view staged]
    by_cases same : page.cursor.scope = scope
    · simp only [view, applied, Replica.stage, more, same, if_true, Bool.false_eq_true, if_false,
        content_table, part_copyScope, part_deleteScope,
        part_put]
    · simp only [view, applied, same, if_false, content_table,
        part_copyScope, part_deleteScope, part_put]

end SqliteTables

def sqliteStore : LocalStore SqliteTables SqliteSurroundings :=
  .ofTransactions (fun around response tables => tables.reconcile around response)
    fun around page tables => tables.stageSnapshot around page

def SqliteTables.refinement : Refinement sqliteStore :=
  .ofTransactions view (fun formed => reconcile_view formed)
    fun staged => stageSnapshot_view staged

end Aequora.Store
