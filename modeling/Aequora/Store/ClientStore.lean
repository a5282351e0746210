import Aequora.Base.HeldQueue
import Aequora.Store.LocalReference

/-! The calls a client engine makes on its local store. A store that keeps its outbox as a queue
submits every operation after its dependencies exactly when the queue comes due in that order. -/

namespace Aequora.Store

open Std Aequora.Base Aequora.Protocol

def StoreError.leadershipLost (message : String) : StoreError := { kind := .transient, message }

/-- The calls of a store that keeps scope state. -/
structure ScopeStateStore (State Surroundings : Type) where
  installSubscription : Surroundings → Scope.Subscription → State → State × Except StoreError Unit
  applyScopeTransition : Surroundings → Scope.ScopeTransition → State →
    State × Except StoreError Scope.ScopeTransitionOutcome

/-- The calls of a local store. Without a lease a fenced call is the plain one; what a call draws
from its surroundings, the fate of the lease among it, is given with it. -/
structure ClientStore (State Surroundings : Type) where
  loadCursor : SyncScopeId → State → Option Cursor
  snapshotProgress : SyncScopeId → State → Option SnapshotProgress
  operationState : OperationId → State → Option OutboxState
  pendingOperations : (now limit : Nat) → State → Except StoreError (List OperationEnvelope)
  appendOperation : Surroundings → OperationEnvelope → State → State × Except StoreError Unit
  markSendingFenced : Surroundings → List OperationId → State → State × Except StoreError Unit
  markRetryFenced : Surroundings → List OperationId → (nextAttempt : Nat) → State →
    State × Except StoreError Unit
  reconcileFenced : Surroundings → SyncResponse → State → State × Except StoreError Unit
  stageSnapshotFenced : Surroundings → BootstrapResponse → State → State × Except StoreError Unit
  scopeState : Option (ScopeStateStore State Surroundings)

def scopeResult {Value : Type} : Except Scope.ScopeError Value → Except StoreError Value
  | .ok value => .ok value
  | .error error => .error (.permanent error.text)

inductive OutboxAction (Surroundings : Type) where
  | append (around : Surroundings) (operation : OperationEnvelope)
  | markSending (around : Surroundings) (operations : List OperationId)
  | markRetry (around : Surroundings) (operations : List OperationId) (nextAttempt : Nat)
  | reconcile (around : Surroundings) (response : SyncResponse)
  | installSubscription (around : Surroundings) (subscription : Scope.Subscription)
  | applyScopeTransition (around : Surroundings) (transition : Scope.ScopeTransition)

structure OutboxHistory (State : Type) where
  state : State
  appended : List OperationId

/-- The dependencies of an operation were appended before it. -/
def OutboxAction.Follows {State Surroundings : Type} (history : OutboxHistory State) :
    OutboxAction Surroundings → Prop
  | .append _ operation => ∀ needed ∈ operation.metadata.dependencies, needed ∈ history.appended
  | _ => True

instance {State Surroundings : Type} (history : OutboxHistory State) :
    (action : OutboxAction Surroundings) → Decidable (action.Follows history)
  | .append _ operation => inferInstanceAs (Decidable (∀ needed ∈ operation.metadata.dependencies, _))
  | .markSending _ _ | .markRetry _ _ _ | .reconcile _ _ | .installSubscription _ _
  | .applyScopeTransition _ _ => inferInstanceAs (Decidable True)

structure QueueEntry where
  operation : OperationEnvelope
  due : Option Nat

section
variable (retry : Option RetryMetadata) (disposition : Option Scope.PendingIntentDisposition)

def heldUntil : Option Nat :=
  if disposition.isSome then none else some (retry.elim 0 RetryMetadata.nextAttemptUnixMs)

theorem heldUntil_any (now : Nat) : ((heldUntil retry disposition).any fun time => decide (time ≤ now)) =
      (retry.all (fun retry => decide (retry.nextAttemptUnixMs ≤ now)) && disposition.isNone) := by
  cases disposition with
  | some _ => simp [heldUntil]
  | none => cases retry <;> simp [heldUntil]

end

def dependenciesOf (operation : OperationEnvelope) : List OperationId := operation.metadata.dependencies

section Store
variable (store : ClientStore State Surroundings)

def ClientStore.step (history : OutboxHistory State) : OutboxAction Surroundings → OutboxHistory State
  | .append around operation =>
    { state := (store.appendOperation around operation history.state).1
      appended :=
        if (store.appendOperation around operation history.state).2 = .ok () then
          operation.operationId :: history.appended
        else history.appended }
  | .markSending around operations =>
    { history with state := (store.markSendingFenced around operations history.state).1 }
  | .markRetry around operations nextAttempt =>
    { history with state := (store.markRetryFenced around operations nextAttempt history.state).1 }
  | .reconcile around response =>
    { history with state := (store.reconcileFenced around response history.state).1 }
  | .installSubscription around subscription =>
    match store.scopeState with
    | none => history
    | some scopes => { history with state := (scopes.installSubscription around subscription history.state).1 }
  | .applyScopeTransition around transition =>
    match store.scopeState with
    | none => history
    | some scopes => { history with state := (scopes.applyScopeTransition around transition history.state).1 }

/-- What holds after an append follows from its two outcomes. -/
theorem ClientStore.append_keeps {store : ClientStore State Surroundings}
    (property : State → List OperationId → Prop) {history : OutboxHistory State} {around : Surroundings}
    {operation : OperationEnvelope}
    (accepted : (store.appendOperation around operation history.state).2 = .ok () →
      property (store.appendOperation around operation history.state).1 (operation.operationId :: history.appended))
    (refused : (store.appendOperation around operation history.state).2 ≠ .ok () →
      property (store.appendOperation around operation history.state).1 history.appended) :
    property (store.step history (.append around operation)).state
      (store.step history (.append around operation)).appended := by
  unfold step
  dsimp only
  split
  · rename_i result
    exact accepted result
  · rename_i result
    exact refused result

/-- The operation has its final result in the outbox. -/
def ClientStore.Terminal (state : State) (operation : OperationId) : Prop :=
  (store.operationState operation state).any OutboxState.isTerminal = true

instance (state : State) (operation : OperationId) : Decidable (store.Terminal state operation) :=
  inferInstanceAs (Decidable (_ = true))

/-- Whenever and however many are asked for, no operation is handed out before a dependency that
has no final result. -/
def ClientStore.SubmitsInOrder (state : State) : Prop :=
  ∀ now limit batch, store.pendingOperations now limit state = .ok batch →
    Supported OperationEnvelope.operationId dependenciesOf (store.Terminal state) batch

/-- A store whose outbox is a queue: the times at which it answers, the queue, and what holds of
every history in which dependencies are appended first. -/
structure OutboxRefinement (start : State) where
  answers : Nat → Prop
  queue : State → List QueueEntry
  pending : ∀ {now limit state}, answers now → store.pendingOperations now limit state =
    .ok ((selection QueueEntry.due now limit (queue state)).map QueueEntry.operation)
  refused : ∀ {now limit state batch}, store.pendingOperations now limit state = .ok batch → answers now
  Kept : OutboxHistory State → Prop
  initial : Kept ⟨start, []⟩
  step : ∀ {history action}, Kept history → OutboxAction.Follows history action →
    Kept (store.step history action)
  supported : ∀ {history}, Kept history →
    Supported (OperationEnvelope.operationId ∘ QueueEntry.operation) (dependenciesOf ∘ QueueEntry.operation)
      (store.Terminal history.state) (queue history.state)
  distinct : ∀ {history}, Kept history → ∀ first ∈ queue history.state, ∀ second ∈ queue history.state,
    first.operation.operationId = second.operation.operationId → first = second
  timely : ∀ {history}, Kept history → ∀ entry ∈ queue history.state, ∀ time, entry.due = some time →
    answers time

namespace OutboxRefinement
variable {store} {start : State} (refinement : OutboxRefinement store start)

/-- Every dependency of an operation that may be sent is settled, or may itself be sent by then. -/
def WaitsInOrder (state : State) : Prop :=
  DueInOrder (OperationEnvelope.operationId ∘ QueueEntry.operation) (dependenciesOf ∘ QueueEntry.operation)
    QueueEntry.due (store.Terminal state) (refinement.queue state)

theorem submitsInOrder_iff (kept : refinement.Kept history) :
    store.SubmitsInOrder history.state ↔ refinement.WaitsInOrder history.state := by
  rw [WaitsInOrder, ← selections_supported_iff (refinement.supported kept) (refinement.distinct kept)
    (refinement.timely kept)]
  constructor
  · intro inOrder now answered limit
    exact supported_map.mp (inOrder now limit _ (refinement.pending answered))
  · intro selected now limit _ handed
    have answered := refinement.refused handed
    rw [refinement.pending answered] at handed
    cases handed
    exact supported_map.mpr (selected now answered limit)

/-- In every state of a history in which dependencies are appended first, submitting in order is the
same as waiting in order. -/
def OrderedRun (actions : List (OutboxAction Surroundings)) : Prop :=
  Run.Permitted store.step OutboxAction.Follows ⟨start, []⟩ actions →
    Run.Throughout store.step
      (fun history => store.SubmitsInOrder history.state ↔ refinement.WaitsInOrder history.state)
      ⟨start, []⟩ actions

theorem orderedRun (actions : List (OutboxAction Surroundings)) : refinement.OrderedRun actions := fun follows =>
  (Run.Throughout.of_step refinement.initial (fun _ _ => refinement.step) follows).mono
    fun _ kept => refinement.submitsInOrder_iff kept

end OutboxRefinement

end Store

end Aequora.Store
