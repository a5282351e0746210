import Aequora.Store.ClientStore

/-! One exchange of the client engine: the batch it submits, the checks on the response, and what
becomes of the batch if they fail. -/

namespace Aequora.Client

open Std Aequora.Base Aequora.Protocol Aequora.Store

inductive TransportErrorKind where
  | transient | permanent
deriving DecidableEq

structure TransportError where
  kind : TransportErrorKind
  retryAfter : Option Nat
  message : String
deriving DecidableEq

structure ClientConfig where
  protocol : UInt16
  session : SessionMetadata
  pushBatchBytes : Nat
  limits : ClientLimits
  (maxAttempts maxDelay maxExchangesPerSync : Nat)
  snapshotLimits : SnapshotLimits

inductive ClientError where
  | scheduling (reason : String)
  | store (error : StoreError)
  | transport (error : TransportError)
  | protocol
  | upgradeRequired (minimum current : UInt16)
  | resyncRequired (reason : ResyncReason)
  | authorityChanged (authorityId : AuthorityId) (previousEpoch currentEpoch : AuthorityEpoch)
  | authorityRollbackDetected
  | authorityIdChanged
  | cursorScope
  | cursorRegression
  | changeBoundary
  | changeSequence
  | operationResults
  | responseLimits
  | codec (message : String)
  | pushBatchTooLarge (actual maximum : Nat)
  | noProgress
  | exchangeLimit
  | snapshotMismatch
  | snapshotStreamEnded
deriving DecidableEq

structure SyncOutcome where
  (acknowledged rejected conflicts changes : Nat)
  hasMore : Bool
deriving DecidableEq

def validateSyncDirective : SyncDirective → Except ClientError Unit
  | .continue => .ok ()
  | .upgradeRequired minimum current => .error (.upgradeRequired minimum current)
  | .resyncRequired reason => .error (.resyncRequired reason)
  | .authorityChanged authorityId previousEpoch currentEpoch =>
    .error (.authorityChanged authorityId previousEpoch currentEpoch)

/-- Collect the operations with a result, each of them submitted and not seen before. -/
def collectResults (submitted : Finset OperationId) :
    Finset OperationId → List OperationId → Except ClientError (Finset OperationId)
  | terminal, [] => .ok terminal
  | terminal, operation :: rest =>
    if operation ∉ submitted ∨ operation ∈ terminal then .error .operationResults
    else collectResults submitted (insert operation terminal) rest

def validateOperationResults (response : SyncResponse) (submittedOperations : List OperationId) :
    Except ClientError Unit := do
  let submitted := submittedOperations.toFinset
  require (submitted.card = submittedOperations.length) .operationResults
  let terminal ← collectResults submitted ∅ (terminalIds response)
  require (terminal = submitted) .operationResults

/-- An authority is only followed within its own epoch. -/
def validateTimeline (next : Cursor) : Option Cursor → Except ClientError Unit
  | none => .ok ()
  | some old =>
    if old.authorityId ≠ AuthorityId.legacyUnbound ∧ next.authorityId ≠ old.authorityId then
      .error .authorityIdChanged
    else if next.authorityEpoch < old.authorityEpoch then .error .authorityRollbackDetected
    else if old.authorityEpoch < next.authorityEpoch then
      .error (.authorityChanged next.authorityId old.authorityEpoch next.authorityEpoch)
    else .ok ()

def storedSequence (cursor : Option Cursor) : Sequence := cursor.elim 0 Cursor.sequence

/-- Changes of the session in increasing order, none beyond the next cursor. -/
def validateChanges (session : SessionMetadata) (last : Sequence) :
    Sequence → List RemoteChange → Except ClientError Sequence
  | previous, [] => .ok previous
  | previous, change :: rest =>
    if change.tenantId ≠ session.tenantId ∨ change.scopeId ≠ session.scopeId then .error .changeBoundary
    else if change.sequence ≤ previous ∨ last < change.sequence then .error .changeSequence
    else validateChanges session last change.sequence rest

def SyncOutcome.of (response : SyncResponse) : SyncOutcome where
  acknowledged := response.acknowledged.length
  rejected := response.rejected.length
  conflicts := response.conflicts.length
  changes := response.changes.length
  hasMore := response.hasMore

/-- More is announced, but nothing came and nothing moved. -/
def Stalled (cursor : Option Cursor) (response : SyncResponse) : Prop :=
  response.hasMore = true ∧ response.acknowledged.length = 0 ∧ response.rejected.length = 0 ∧
    response.conflicts.length = 0 ∧ response.changes.length = 0 ∧
    storedSequence cursor = response.nextCursor.sequence

instance (cursor : Option Cursor) (response : SyncResponse) : Decidable (Stalled cursor response) :=
  inferInstanceAs (Decidable (_ ∧ _))

/-- All checks on a response, in the order they are made. -/
def validateResponse (config : ClientConfig) (encodedLength : SyncResponse → Except ClientError Nat)
    (cursor : Option Cursor) (response : SyncResponse) (submittedOperations : List OperationId) :
    Except ClientError SyncOutcome := do
  validateSyncDirective response.directive
  require (response.protocol = config.protocol) .protocol
  let responseBytes ← encodedLength response
  require (response.changes.length ≤ config.limits.maxChanges ∧
    responseBytes ≤ config.limits.maxResponseBytes) .responseLimits
  require (response.nextCursor.scope = config.session.scopeId) .cursorScope
  validateTimeline response.nextCursor cursor
  require (storedSequence cursor ≤ response.nextCursor.sequence) .cursorRegression
  validateOperationResults response submittedOperations
  let reached ← validateChanges config.session response.nextCursor.sequence (storedSequence cursor)
    response.changes
  require (response.nextCursor.sequence = reached) .changeSequence
  require (¬Stalled cursor response) .noProgress
  return .of response

section Exchange
variable {State : Type}

/-- A response that passes all checks is given to the store. -/
def reconcileExchange (config : ClientConfig) (encodedLength : SyncResponse → Except ClientError Nat)
    (reconcile : SyncResponse → State → State × Except StoreError Unit) (cursor : Option Cursor)
    (response : SyncResponse) (submittedOperations : List OperationId) (state : State) :
    State × Except ClientError SyncOutcome :=
  match validateResponse config encodedLength cursor response submittedOperations with
  | .error error => (state, .error error)
  | .ok outcome =>
    match reconcile response state with
    | (next, .error error) => (next, .error (.store error))
    | (next, .ok ()) => (next, .ok outcome)

structure Scheduling where
  (maxBatchOps maxBatchBytes : Nat)

/-- What one exchange draws from outside: the decision of the scheduler, the compaction of the
outbox, the codec, the clock, the transport, and the surroundings of each call of the store. -/
structure ExchangeCall (State Surroundings : Type) where
  scheduling : Except ClientError Scheduling
  compactOutbox : State → State × Except StoreError Unit
  (batchLimit now : Nat)
  requestId : RequestId
  encodedRequest : SyncRequest → Except ClientError Nat
  sending : Surroundings
  exchange : SyncRequest → Except TransportError SyncResponse
  encodedResponse : SyncResponse → Except ClientError Nat
  reconciling : Surroundings
  (retryDelay retryNow : Nat)
  retrying : Surroundings

/-- Halve the batch until it fits, at most as often as there are operations. -/
def fitOperations (encoded : List OperationEnvelope → Except ClientError Nat) (maximum : Nat) :
    (fuel : Nat) → List OperationEnvelope → Except ClientError (List OperationEnvelope)
  | 0, operations => do
    let actual ← encoded operations
    if actual ≤ maximum then return operations else .error (.pushBatchTooLarge actual maximum)
  | fuel + 1, operations => do
    let actual ← encoded operations
    if actual ≤ maximum then return operations
    else if operations.length ≤ 1 then .error (.pushBatchTooLarge actual maximum)
    else fitOperations encoded maximum fuel (operations.take ((operations.length + 1) / 2))

theorem fitOperations_enough (enough : operations.length ≤ fuel) :
    fitOperations encoded maximum (fuel + 1) operations = fitOperations encoded maximum fuel operations := by
  induction fuel generalizing operations with
  | zero => simp only [fitOperations, Nat.le_trans enough (Nat.zero_le 1), if_true]
  | succ fuel ih =>
    by_cases single : operations.length ≤ 1
    · simp only [fitOperations, single, if_true]
    · have half : (operations.take ((operations.length + 1) / 2)).length ≤ fuel := by
        rw [List.length_take]
        omega
      rw [fitOperations, ih half, ← fitOperations]

theorem fitOperations_eq (extra : Nat) :
    fitOperations encoded maximum (operations.length + extra) operations =
      fitOperations encoded maximum operations.length operations := by
  induction extra with
  | zero => rfl
  | succ _ ih => rw [← Nat.add_assoc, fitOperations_enough (Nat.le_add_right _ _), ih]

def prepareRequest (config : ClientConfig) (store : ClientStore State Surroundings)
    (call : ExchangeCall State Surroundings) (scheduling : Scheduling) (state : State) :
    Except ClientError SyncRequest := do
  let operations ← (store.pendingOperations call.now (min call.batchLimit scheduling.maxBatchOps) state).mapError
    .store
  let request : SyncRequest :=
    { protocol := config.protocol
      requestId := call.requestId
      session := config.session
      cursor := store.loadCursor config.session.scopeId state
      operations
      limits := config.limits }
  let fitted ← fitOperations (fun operations => call.encodedRequest { request with operations })
    (min config.pushBatchBytes scheduling.maxBatchBytes) operations.length operations
  return { request with operations := fitted }

def retryNotBefore (now delay : Nat) : Nat := saturatingAdd now delay

/-- The batch becomes replayable again from the given time, and the caller gets the error, unless
that fails too. -/
def retryLater (store : ClientStore State Surroundings) (call : ExchangeCall State Surroundings)
    (operations : List OperationId) (nextAttempt : Nat) (error : ClientError) (state : State) :
    State × Except ClientError SyncOutcome :=
  match store.markRetryFenced call.retrying operations nextAttempt state with
  | (next, .error failure) => (next, .error (.store failure))
  | (next, .ok ()) => (next, .error error)

/-- A batch whose exchange failed is tried again after the delay; after a change of epoch it is put
off for good. -/
def concludeExchange (store : ClientStore State Surroundings) (call : ExchangeCall State Surroundings)
    (operations : List OperationId) :
    State × Except ClientError SyncOutcome → State × Except ClientError SyncOutcome
  | (state, .error (.authorityChanged authorityId previousEpoch currentEpoch)) =>
    retryLater store call operations u64Max (.authorityChanged authorityId previousEpoch currentEpoch) state
  | (state, .error error) =>
    retryLater store call operations (retryNotBefore call.retryNow call.retryDelay) error state
  | (state, .ok outcome) => (state, .ok outcome)

def submittedIds (request : SyncRequest) : List OperationId :=
  request.operations.map OperationEnvelope.operationId

def submitRequest (config : ClientConfig) (store : ClientStore State Surroundings)
    (call : ExchangeCall State Surroundings) (request : SyncRequest) (state : State) :
    State × Except ClientError SyncOutcome :=
  match store.markSendingFenced call.sending (submittedIds request) state with
  | (next, .error error) => (next, .error (.store error))
  | (next, .ok ()) =>
    match call.exchange request with
    | .error error =>
      let delay := min (error.retryAfter.elim call.retryDelay (max call.retryDelay)) config.maxDelay
      retryLater store call (submittedIds request) (retryNotBefore call.retryNow delay) (.transport error) next
    | .ok response =>
      concludeExchange store call (submittedIds request)
        (reconcileExchange config call.encodedResponse (store.reconcileFenced call.reconciling)
          request.cursor response (submittedIds request) next)

def runOnce (config : ClientConfig) (store : ClientStore State Surroundings)
    (call : ExchangeCall State Surroundings) (state : State) : State × Except ClientError SyncOutcome :=
  match call.scheduling with
  | .error error => (state, .error error)
  | .ok scheduling =>
    match call.compactOutbox state with
    | (compacted, .error error) => (compacted, .error (.store error))
    | (compacted, .ok ()) =>
      match prepareRequest config store call scheduling compacted with
      | .error error => (compacted, .error error)
      | .ok request => submitRequest config store call request compacted

end Exchange

end Aequora.Client
