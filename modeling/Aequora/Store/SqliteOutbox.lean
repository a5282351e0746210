import Aequora.Store.Sqlite
import Aequora.Store.SqlOutbox

/-! The SQLite store as a client uses it, with the retry time in the row, no coordination and no
scope state. -/

namespace Aequora.Store

open Std Aequora.Base Aequora.Protocol OutboxTable

structure SqliteCall extends SqliteSurroundings where
  leased : Bool
  encodeOperation : OperationEnvelope → Except StoreError Unit
  uniqueViolation : String

/-- The fenced call of an adapter that only has the plain one. -/
def unlessLeased {State Result : Type} (leased : Bool) (message : String) (state : State)
    (call : State × Except StoreError Result) : State × Except StoreError Result :=
  if leased then (state, .error (.leadershipLost message)) else call

namespace SqliteTables
variable (tables : SqliteTables)

def pendingOperations (now limit : Nat) : Except StoreError (List OperationEnvelope) := do
  let time ← toI64 now (sqliteRange "current time")
  return select tables.operationOutbox
    (fun row => decide (row.schedule.nextAttemptUnixMs ≤ time)) limit

def appendOperation (around : SqliteCall) (operation : OperationEnvelope) :
    Except StoreError SqliteTables := do
  around.encodeOperation operation
  require (operation.operationId ∉ tables.operationOutbox) (.permanent around.uniqueViolation)
  return { tables with
    operationOutbox := insertRow tables.operationOutbox operation
      { attemptCount := 0, nextAttemptUnixMs := 0 } }

def transitionRefused : StoreError :=
  .permanent "SQLite outbox transition requires one replayable operation"

/-- The update of one row; the retry time is converted with each of them. -/
def transitionOperation (state : OutboxState) (retryAt : Option Nat)
    (outbox : OutboxTable (List UInt8) RetryMetadata) (operation : OperationId) :
    Except StoreError (OutboxTable (List UInt8) RetryMetadata) :=
  match retryAt with
  | some retryAt => do
    let time ← toI64 retryAt (sqliteRange "retry timestamp")
    moveRow outbox transitionRefused transitionRefused state
      (fun schedule => { attemptCount := schedule.attemptCount + 1, nextAttemptUnixMs := time }) operation
  | none => moveRow outbox transitionRefused transitionRefused state id operation

def transitionOperations (operations : List OperationId) (state : OutboxState) (retryAt : Option Nat) :
    Except StoreError SqliteTables := do
  let outbox ← operations.foldlM (transitionOperation state retryAt) tables.operationOutbox
  return { tables with operationOutbox := outbox }

end SqliteTables

def sqliteClient : ClientStore SqliteTables SqliteCall where
  loadCursor scope tables := tables.syncCursor[scope]?
  snapshotProgress scope tables := tables.snapshotProgress[scope]?
  operationState operation tables := (tables.operationOutbox[operation]?).map OutboxRow.state
  pendingOperations now limit tables := tables.pendingOperations now limit
  appendOperation around operation tables := commitOrRollback tables (tables.appendOperation around operation)
  markSendingFenced around operations tables :=
    unlessLeased around.leased "adapter does not implement fenced outbox transitions" tables
      (commitOrRollback tables (tables.transitionOperations operations .sending none))
  markRetryFenced around operations nextAttempt tables :=
    unlessLeased around.leased "adapter does not implement fenced retry transitions" tables
      (commitOrRollback tables (tables.transitionOperations operations .retry (some nextAttempt)))
  reconcileFenced around response tables :=
    unlessLeased around.leased "adapter does not implement fenced reconciliation" tables
      (sqliteStore.reconcile around.toSqliteSurroundings response tables)
  stageSnapshotFenced around page tables :=
    unlessLeased around.leased "adapter does not implement fenced snapshot installation" tables
      (sqliteStore.stageSnapshot around.toSqliteSurroundings page tables)
  scopeState := none

theorem unlessLeased_keeps (property : State → Prop) (before : property state)
    (after : property call.1) : property (unlessLeased leased message state call).1 := by
  cases leased with
  | true => exact before
  | false => exact after

namespace SqliteTables
variable {tables : SqliteTables}

def due (row : OutboxRow (List UInt8) RetryMetadata) : Option Nat := some row.schedule.nextAttemptUnixMs

section
variable (outbox : OutboxTable (List UInt8) RetryMetadata)

/-- The retry times fit their column. -/
def Timed : Prop :=
  ∀ (operation : OperationId) row, outbox[operation]? = some row →
    row.schedule.nextAttemptUnixMs ≤ i64Max

/-- The outbox after appends in the order of their dependencies. -/
structure Queued (appended : List OperationId) : Prop where
  sequenced : Sequenced outbox appended
  timed : Timed outbox

end

theorem Timed.insert (timed : Timed outbox)
    (fits : row.schedule.nextAttemptUnixMs ≤ i64Max) : Timed (outbox.insert operation row) := by
  intro other found stored
  rw [lookup_insert] at stored
  split at stored
  · cases stored
    exact fits
  · exact timed other found stored

theorem Queued.updateTerminal
    (queued : Queued outbox appended) (operation : OperationId) (state : OutboxState) (detail : List UInt8) :
    Queued (updateTerminal outbox operation state detail) appended := by
  refine ⟨queued.sequenced.of_outline (outline_updateTerminal operation state detail), ?_⟩
  unfold Store.updateTerminal
  split
  · exact queued.timed
  · rename_i row found
    exact queued.timed.insert (queued.timed operation row found)

theorem Queued.transition (queued : Queued outbox appended)
    (success : transitionOperation state retryAt outbox operation = .ok moved) : Queued moved appended := by
  cases retryAt with
  | none =>
    obtain ⟨row, found, _, rfl⟩ := moveRow_eq success
    exact ⟨queued.sequenced.of_outline (outline_insert found rfl rfl),
      queued.timed.insert (queued.timed operation row found)⟩
  | some _ =>
    obtain ⟨_, converted, moves⟩ := bind_eq_ok_iff.mp success
    obtain ⟨fits, rfl⟩ := toI64_eq_ok.mp converted
    obtain ⟨_, found, _, rfl⟩ := moveRow_eq moves
    exact ⟨queued.sequenced.of_outline (outline_insert found rfl rfl), queued.timed.insert fits⟩

theorem Queued.transitions (queued : Queued tables.operationOutbox appended)
    (success : tables.transitionOperations operations state retryAt = .ok next) :
    Queued next.operationOutbox appended := by
  obtain ⟨_, moved, stored⟩ := bind_eq_ok_iff.mp success
  cases stored
  exact foldlM_invariant (Queued · appended) queued (fun _ _ _ _ held => held.transition) moved

theorem transitionOperations_unfit (unfit : i64Max < retryAt) :
    (∃ next, tables.transitionOperations operations state (some retryAt) = .ok next) ↔ operations = [] := by
  cases operations with
  | nil => exact iff_of_true ⟨_, rfl⟩ rfl
  | cons _ _ =>
    refine iff_of_false (fun ⟨next, moved⟩ => ?_) (List.cons_ne_nil _ _)
    obtain ⟨_, moves, _⟩ := bind_eq_ok_iff.mp moved
    rw [List.foldlM_cons, bind_eq_ok_iff] at moves
    obtain ⟨_, converted, _⟩ := moves
    obtain ⟨_, converted, _⟩ := bind_eq_ok_iff.mp converted
    exact Nat.not_le_of_lt unfit (toI64_eq_ok.mp converted).1

theorem applyChange_outbox
    (applied : tables.applyChange around change = .ok next) : next.operationOutbox = tables.operationOutbox := by
  rw [applyChange, bind_eq_ok_iff] at applied
  obtain ⟨_, _, applied⟩ := applied
  split at applied
  · cases applied
    rfl
  · simp only [bind_eq_ok_iff] at applied
    obtain ⟨_, _, _, _, applied⟩ := applied
    cases applied
    rfl

theorem Queued.reconcile (queued : Queued tables.operationOutbox appended)
    (reconciled : tables.reconcile around response = .ok next) : Queued next.operationOutbox appended := by
  obtain ⟨_, applied, settled, changes, written, kept⟩ := reconcile_eq reconciled
  have unchanged : applied.operationOutbox = tables.operationOutbox :=
    foldlM_keeps operationOutbox (fun _ _ _ _ => applyChange_outbox) changes
  have settled := kept (Queued ·.operationOutbox appended) (fun _ operation state detail held =>
    held.updateTerminal operation state detail) (fun _ _ => id) (unchanged ▸ queued)
  simp only [writeCursor, bind_eq_ok_iff] at written
  obtain ⟨_, _, _, _, _, _, written⟩ := written
  cases written
  exact settled

theorem Queued.append (queued : Queued tables.operationOutbox appended)
    (follows : ∀ needed ∈ dependenciesOf operation, needed ∈ appended)
    (stored : tables.appendOperation around operation = .ok next) :
    Queued next.operationOutbox (operation.operationId :: appended) := by
  simp only [appendOperation, bind_eq_ok_iff] at stored
  obtain ⟨_, _, _, fresh, stored⟩ := stored
  cases stored
  exact ⟨queued.sequenced.insertRow (ExtTreeMap.getElem?_eq_none (require_eq_ok.mp fresh)) follows,
    queued.timed.insert (Nat.zero_le _)⟩

theorem Queued.step
    (queued : Queued history.state.operationOutbox history.appended) (follows : action.Follows history) :
    Queued (sqliteClient.step history action).state.operationOutbox
      (sqliteClient.step history action).appended := by
  -- Every call is a transaction, refused as a whole while there is a lease.
  let kept (tables : SqliteTables) := Queued tables.operationOutbox history.appended
  have transacted {leased : Bool} {message : String} {result : Except StoreError SqliteTables}
      (committed : ∀ next, result = .ok next → kept next) :
      kept (unlessLeased leased message history.state (commitOrRollback history.state result)).1 :=
    unlessLeased_keeps kept queued (commitOrRollback_keeps kept queued committed)
  cases action with
  | append around operation =>
    refine ClientStore.append_keeps (fun (tables : SqliteTables) appended => Queued tables.operationOutbox appended)
      (fun accepted => queued.append follows (commitOrRollback_accepted accepted)) fun refused => ?_
    have unchanged : (sqliteClient.appendOperation around operation history.state).1 = history.state :=
      commitOrRollback_refused refused
    rwa [unchanged]
  | markSending around operations => exact transacted fun _ => queued.transitions
  | markRetry around _ _ => exact transacted fun _ => queued.transitions
  | reconcile around _ => exact transacted fun _ => queued.reconcile
  | installSubscription around _ => exact queued
  | applyScopeTransition _ _ => exact queued

/-- The SQLite store keeps its outbox as a queue, and answers while the time fits its column. -/
def outboxRefinement : OutboxRefinement sqliteClient SqliteTables.empty where
  answers now := now ≤ i64Max
  queue tables := OutboxTable.queue tables.operationOutbox due
  pending {now limit tables} fits := by
    rw [← select_eq]
    simp only [sqliteClient, pendingOperations, toI64, if_pos fits]
    rfl
  refused {now limit tables batch} handed := by
    obtain ⟨_, converted, _⟩ := bind_eq_ok_iff.mp handed
    exact (toI64_eq_ok.mp converted).1
  Kept history := Queued history.state.operationOutbox history.appended
  initial := ⟨.initial, fun _ _ stored => by simp [SqliteTables.empty] at stored⟩
  step := Queued.step
  supported queued := queued.sequenced.supported due
  distinct queued := queued.sequenced.distinct
  timely {history} queued entry member time timed := by
    obtain ⟨row, waits, rfl⟩ := List.mem_map.mp member
    cases timed
    exact queued.timed _ row (queued.sequenced.mem_waiting.mp waits).1

end SqliteTables

end Aequora.Store
