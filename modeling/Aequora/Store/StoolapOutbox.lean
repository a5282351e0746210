import Aequora.Store.SqlOutbox
import Aequora.Store.Stoolap

/-! The Stoolap store as a client uses it. Every call checks the lease inside its transaction. -/

namespace Aequora.Store

open Std Aequora.Base Aequora.Protocol OutboxTable Scope

/-- What encoding a new operation, hashing a stored one and encoding the scope state come to. -/
structure StoolapCall extends StoolapSurroundings where
  encodeOperation : OperationEnvelope → Except StoreError Unit
  hashOperation : OperationId → Except StoreError Unit
  encodeScopeState : LocalScopeState → Except StoreError Unit

namespace StoolapTables
variable (tables : StoolapTables)

def pendingOperations (now limit : Nat) : Except StoreError (List OperationEnvelope) := do
  let time ← toI64 now (stoolapRange "current Unix timestamp")
  return select tables.outbox (fun row =>
    (tables.retrySchedule[row.operation.operationId]?).all
        (fun retry => decide (retry.nextAttemptUnixMs ≤ time)) &&
      (tables.scopeQuarantine[row.operation.operationId]?).isNone) limit

/-- An operation already in the outbox is not inserted again. -/
def appendOperation (around : StoolapCall) (operation : OperationEnvelope) : Except StoreError StoolapTables :=
  if operation.operationId ∈ tables.outbox then .ok tables
  else do
    around.encodeOperation operation
    return { tables with outbox := insertRow tables.outbox operation () }

def missingOrTerminal : StoreError := .permanent "operation is missing or terminal"

section
variable (around : StoolapCall)

def transitionOperation (next : OutboxState) (outbox : OutboxTable String Unit)
    (operation : OperationId) : Except StoreError (OutboxTable String Unit) := do
  let moved ← moveRow outbox missingOrTerminal missingOrTerminal next id operation
  around.hashOperation operation
  return moved

def transitionOperations (operations : List OperationId) (next : OutboxState) :
    Except StoreError StoolapTables := do
  around.fence
  let outbox ← operations.foldlM (transitionOperation around next) tables.outbox
  return { tables with outbox }

def scheduleOne (nextAttempt : Nat) (operation : OperationId) :
    Except StoreError StoolapTables := do
  let outbox ← moveRow tables.outbox (.permanent "operation is missing from the outbox")
    (.permanent "terminal outbox operation cannot transition back to retry") .retry id operation
  around.hashOperation operation
  return { tables with
    outbox
    retrySchedule := tables.retrySchedule.insert operation
      { attemptCount := (tables.retrySchedule[operation]?).elim 1 fun retry => retry.attemptCount + 1
        nextAttemptUnixMs := nextAttempt } }

/-- The retry time is converted before anything else, even for no operation at all. -/
def scheduleRetry (operations : List OperationId) (nextAttempt : Nat) :
    Except StoreError StoolapTables := do
  let time ← toI64 nextAttempt (stoolapRange "retry timestamp")
  around.fence
  operations.foldlM (scheduleOne · around time) tables

def installSubscription (subscription : Subscription) :
    Except StoreError StoolapTables := do
  let scopeState ← scopeResult (tables.scopeState.install subscription)
  around.encodeScopeState scopeState
  return { tables with scopeState }

/-- The operations that an applied transition withholds also enter the quarantine table. -/
def applyScopeTransition (transition : ScopeTransition) :
    Except StoreError (StoolapTables × ScopeTransitionOutcome) := do
  around.fence
  let (scopeState, outcome) ← scopeResult (tables.scopeState.apply transition)
  around.encodeScopeState scopeState
  return ({ tables with
    scopeState
    scopeQuarantine :=
      if outcome.applied then
        LocalScopeState.quarantine tables.scopeQuarantine transition.affectedPendingOperations
          transition.kind.disposition
      else tables.scopeQuarantine }, outcome)

end

end StoolapTables

def stoolapClient : ClientStore StoolapTables StoolapCall where
  loadCursor scope tables := tables.cursors[scope]?
  snapshotProgress scope tables := tables.snapshotProgress[scope]?
  operationState operation tables := (tables.outbox[operation]?).map OutboxRow.state
  pendingOperations now limit tables := tables.pendingOperations now limit
  appendOperation around operation tables := commitOrRollback tables (tables.appendOperation around operation)
  markSendingFenced around operations tables :=
    commitOrRollback tables (tables.transitionOperations around operations .sending)
  markRetryFenced around operations nextAttempt tables :=
    commitOrRollback tables (tables.scheduleRetry around operations nextAttempt)
  reconcileFenced around response tables := stoolapStore.reconcile around.toStoolapSurroundings response tables
  stageSnapshotFenced around page tables := stoolapStore.stageSnapshot around.toStoolapSurroundings page tables
  scopeState := some {
    installSubscription := fun around subscription tables =>
      commitOrRollback tables (tables.installSubscription around subscription)
    applyScopeTransition := fun around transition tables =>
      match tables.applyScopeTransition around transition with
      | .error error => (tables, .error error)
      | .ok (next, outcome) => (next, .ok outcome) }

namespace StoolapTables
def due (tables : StoolapTables) (row : OutboxRow String Unit) : Option Nat :=
  heldUntil (tables.retrySchedule[row.operation.operationId]?)
    (tables.scopeQuarantine[row.operation.operationId]?)

/-- The outbox after appends in the order of their dependencies. -/
structure Queued (appended : List OperationId) (tables : StoolapTables) : Prop where
  sequenced : Sequenced tables.outbox appended
  timed : ∀ (operation : OperationId) retry, tables.retrySchedule[operation]? = some retry →
    retry.nextAttemptUnixMs ≤ i64Max

section
variable (queued : Queued appended tables)
include queued

theorem Queued.of_outline (same : outline next.outbox = outline tables.outbox)
    (schedule : next.retrySchedule = tables.retrySchedule) : Queued appended next :=
  ⟨queued.sequenced.of_outline same, schedule ▸ queued.timed⟩

theorem Queued.append (follows : ∀ needed ∈ dependenciesOf operation, needed ∈ appended)
    (stored : tables.appendOperation around operation = .ok next) :
    Queued (operation.operationId :: appended) next := by
  unfold appendOperation at stored
  split at stored
  · rename_i known
    cases stored
    refine ⟨⟨fun other member => ?_, queued.sequenced.keyed, queued.sequenced.ordered⟩, queued.timed⟩
    rcases List.mem_cons.mp member with rfl | earlier
    · rw [outline, Option.isSome_map]
      exact ExtTreeMap.isSome_getElem?_iff_mem.mpr known
    · exact queued.sequenced.known other earlier
  · rename_i fresh
    obtain ⟨_, _, stored⟩ := bind_eq_ok_iff.mp stored
    cases stored
    exact ⟨queued.sequenced.insertRow (ExtTreeMap.getElem?_eq_none fresh) follows, queued.timed⟩

theorem Queued.transitions
    (success : tables.transitionOperations around operations state = .ok next) : Queued appended next := by
  simp only [transitionOperations, bind_eq_ok_iff] at success
  obtain ⟨_, _, outbox, moved, stored⟩ := success
  cases stored
  refine queued.of_outline (foldlM_keeps outline (fun operation _ outbox after moves => ?_) moved) rfl
  simp only [transitionOperation, bind_eq_ok_iff] at moves
  obtain ⟨_, moves, _, _, stored⟩ := moves
  cases stored
  obtain ⟨_, found, _, rfl⟩ := moveRow_eq moves
  exact outline_insert found rfl rfl

theorem Queued.scheduleOne (fits : time ≤ i64Max)
    (success : tables.scheduleOne around time operation = .ok next) : Queued appended next := by
  simp only [StoolapTables.scheduleOne, bind_eq_ok_iff] at success
  obtain ⟨_, moves, _, _, stored⟩ := success
  cases stored
  obtain ⟨_, found, _, rfl⟩ := moveRow_eq moves
  refine ⟨queued.sequenced.of_outline (outline_insert found rfl rfl), fun other retry held => ?_⟩
  rw [lookup_insert] at held
  split at held
  · cases held
    exact fits
  · exact queued.timed other retry held

theorem Queued.scheduleRetry (success : tables.scheduleRetry around operations nextAttempt = .ok next) :
    Queued appended next := by
  simp only [StoolapTables.scheduleRetry, bind_eq_ok_iff] at success
  obtain ⟨_, converted, _, _, scheduled⟩ := success
  obtain ⟨fits, rfl⟩ := toI64_eq_ok.mp converted
  exact foldlM_invariant (Queued appended) queued (fun _ _ _ _ held => held.scheduleOne fits) scheduled

omit queued in
theorem scheduleRetry_unfit
    (unfit : i64Max < nextAttempt) : tables.scheduleRetry around operations nextAttempt ≠ .ok next := by
  intro success
  simp only [scheduleRetry, bind_eq_ok_iff] at success
  obtain ⟨_, converted, _⟩ := success
  exact Nat.not_le_of_lt unfit (toI64_eq_ok.mp converted).1

theorem Queued.reconcile {around : StoolapSurroundings} (reconciled : tables.reconcile around response = .ok next) :
    Queued appended next := by
  obtain ⟨_, _, applied, settled, changes, written, kept⟩ := reconcile_eq reconciled
  have unchanged := foldlM_keeps (fun tables : StoolapTables => (tables.outbox, tables.retrySchedule))
    (fun _ _ _ _ stepped => by rw [applyChange_eq stepped]) changes
  let shown (tables : StoolapTables) := (OutboxTable.outline tables.outbox, tables.retrySchedule)
  have same : shown settled = shown applied :=
    kept (shown · = shown applied) (fun _ operation state detail same =>
      (congrArg (·, _) (outline_updateTerminal operation state detail)).trans same) (fun _ _ _ => id) rfl
  simp only [setCursor, bind_eq_ok_iff] at written
  obtain ⟨_, _, _, _, written⟩ := written
  cases written
  obtain ⟨outbox, schedule⟩ := Prod.mk.inj unchanged
  obtain ⟨outline, kept⟩ := Prod.mk.inj same
  exact queued.of_outline (outline.trans (congrArg _ outbox)) (kept.trans schedule)

theorem Queued.installSubscription
    (installed : tables.installSubscription around subscription = .ok next) : Queued appended next := by
  simp only [StoolapTables.installSubscription, bind_eq_ok_iff] at installed
  obtain ⟨_, _, _, _, stored⟩ := installed
  cases stored
  exact queued.of_outline rfl rfl

theorem Queued.applyScopeTransition
    (applied : tables.applyScopeTransition around transition = .ok (next, outcome)) : Queued appended next := by
  simp only [StoolapTables.applyScopeTransition, bind_eq_ok_iff] at applied
  obtain ⟨_, _, _, _, _, _, stored⟩ := applied
  cases stored
  exact queued.of_outline rfl rfl

end

theorem Queued.step {history : OutboxHistory StoolapTables}
    (queued : Queued history.appended history.state) (follows : action.Follows history) :
    Queued (stoolapClient.step history action).appended (stoolapClient.step history action).state := by
  cases action with
  | append around operation =>
    refine ClientStore.append_keeps (fun (tables : StoolapTables) appended => Queued appended tables)
      (fun accepted => queued.append follows (commitOrRollback_accepted accepted)) fun refused => ?_
    have unchanged : (stoolapClient.appendOperation around operation history.state).1 = history.state :=
      commitOrRollback_refused refused
    rwa [unchanged]
  | markSending around operations =>
    exact commitOrRollback_keeps (Queued history.appended) queued fun _ => queued.transitions
  | markRetry around _ _ =>
    exact commitOrRollback_keeps (Queued history.appended) queued fun _ => queued.scheduleRetry
  | reconcile around _ =>
    exact commitOrRollback_keeps (Queued history.appended) queued fun _ => queued.reconcile
  | installSubscription around _ =>
    exact commitOrRollback_keeps (Queued history.appended) queued fun _ => queued.installSubscription
  | applyScopeTransition _ _ =>
    unfold ClientStore.step stoolapClient
    dsimp only
    split
    · exact queued
    · rename_i applied
      exact queued.applyScopeTransition applied

/-- The Stoolap store keeps its outbox as a queue, and answers while the time fits its column. -/
def outboxRefinement : OutboxRefinement stoolapClient StoolapTables.empty where
  answers now := now ≤ i64Max
  queue tables := OutboxTable.queue tables.outbox tables.due
  pending {now limit tables} fits := by
    rw [← select_eq]
    simp only [stoolapClient, pendingOperations, toI64, if_pos fits, due, heldUntil_any]
    rfl
  refused {now limit tables batch} handed := by
    obtain ⟨_, converted, _⟩ := bind_eq_ok_iff.mp handed
    exact (toI64_eq_ok.mp converted).1
  Kept history := Queued history.appended history.state
  initial := ⟨.initial, fun _ _ stored => by simp [StoolapTables.empty] at stored⟩
  step := Queued.step
  supported {history} queued := queued.sequenced.supported history.state.due
  distinct queued := queued.sequenced.distinct
  timely {history} queued entry member time timed := by
    obtain ⟨row, waits, rfl⟩ := List.mem_map.mp member
    have held : heldUntil _ _ = some time := timed
    unfold heldUntil at held
    split at held
    · cases held
    · cases held
      cases found : history.state.retrySchedule[row.operation.operationId]? with
      | none => exact Nat.zero_le _
      | some retry => exact queued.timed _ retry found

end StoolapTables

end Aequora.Store
