import Aequora.Coordination.Lease
import Aequora.Store.OutboxCompaction
import Aequora.Store.SqlOutbox
import Aequora.Store.Stoolap

/-! The outbox of the Stoolap store with its delivery columns: what was ever sent, with which hash,
the digest of the envelope, and who holds a row in flight. -/

namespace Aequora.Store

open Std Aequora.Base Aequora.Protocol Queue Coordination LocalOutbox OutboxTable

abbrev PayloadHash := Vector UInt8 32

/-- The delivery columns of a row; one older than the digest column has no digest. -/
structure Delivery where
  everSent : Bool
  (immutableHash payloadDigest : Option PayloadHash)
  inFlightOwner : Option ProcessInstanceId
  inFlightSinceUnixMs : Option Nat
deriving DecidableEq

def Delivery.new (digest : PayloadHash) : Delivery where
  everSent := false
  immutableHash := none
  payloadDigest := some digest
  inFlightOwner := none
  inFlightSinceUnixMs := none

abbrev DeliveryRow := OutboxRow String Delivery
abbrev DeliveryTable := OutboxTable String Delivery

/-- The row was never handed to a transport attempt. -/
def Unsent (row : DeliveryRow) : Prop := row.state = .pending ∧ row.schedule.everSent = false

instance (row : DeliveryRow) : Decidable (Unsent row) :=
  inferInstanceAs (Decidable (row.state = .pending ∧ row.schedule.everSent = false))

/-- The tables that queue maintenance and delivery write. -/
structure StoolapQueue where
  outbox : DeliveryTable
  retrySchedule : ExtTreeMap OperationId RetryMetadata
  scopeQuarantine : ExtTreeMap OperationId Scope.PendingIntentDisposition
  supersession : ExtTreeMap OperationId (Option OperationId × SupersessionReason)
  rebaseHistory : List (OperationId × Option Nat × Option Nat)
deriving DecidableEq

structure StoolapEngine where
  codec : EnvelopeCodec
  (encodingFailure uniqueViolation : String)

section
variable (engine : StoolapEngine) (operation : OperationEnvelope)

def StoolapEngine.encode : Except StoreError Unit :=
  require ((engine.codec.toStdvec operation).isSome = true)
    (.permanent ("Stoolap value encoding failed: " ++ engine.encodingFailure))

def StoolapEngine.hash : Except StoreError PayloadHash :=
  queueResult (semanticEnvelopeHash engine.codec operation)

end

structure ClaimedOperation where
  operation : OperationEnvelope
  payloadDigest : PayloadHash
deriving DecidableEq

def digestMismatch : StoreError := .permanent "Stoolap outbox payload digest mismatch"

def queueChanged (action : String) : StoreError :=
  .permanent ("queue changed before " ++ action ++ " transaction committed")

namespace StoolapQueue
variable (engine : StoolapEngine) (queue : StoolapQueue)

def empty : StoolapQueue where
  outbox := ∅
  retrySchedule := ∅
  scopeQuarantine := ∅
  supersession := ∅
  rebaseHistory := []

/-- An operation that has a row already is left as it is. -/
def insertOutbox (operation : OperationEnvelope) : Except StoreError StoolapQueue :=
  if operation.operationId ∈ queue.outbox then .ok queue
  else do
    engine.encode operation
    let digest ← engine.hash operation
    return { queue with outbox := insertRow queue.outbox operation (.new digest) }

/-- A row marked for a transport attempt keeps the hash it is sent with. -/
def markRow (missing terminal : StoreError) (next : OutboxState) (outbox : DeliveryTable) (operation : OperationId) :
    Except StoreError DeliveryTable :=
  match outbox[operation]? with
  | none => .error missing
  | some row =>
    if row.state.isReplayable then do
      let hash ← engine.hash row.operation
      return outbox.insert operation
        { row with state := next, schedule := { row.schedule with everSent := true, immutableHash := some hash } }
    else .error terminal

section
variable (fence : Except StoreError Unit)

def transitionOperations (operations : List OperationId) (next : OutboxState) :
    Except StoreError StoolapQueue := do
  fence
  let outbox ← operations.foldlM
    (markRow engine (.permanent "operation is missing or terminal") (.permanent "operation is missing or terminal") next)
    queue.outbox
  return { queue with outbox }

def scheduleOne (nextAttempt : Nat) (queue : StoolapQueue) (operation : OperationId) :
    Except StoreError StoolapQueue := do
  let outbox ← markRow engine (.permanent "operation is missing from the outbox")
    (.permanent "terminal outbox operation cannot transition back to retry") .retry queue.outbox operation
  return { queue with
    outbox
    retrySchedule := queue.retrySchedule.insert operation
      { attemptCount := (queue.retrySchedule[operation]?).elim 1 fun retry => retry.attemptCount + 1
        nextAttemptUnixMs := nextAttempt } }

def scheduleRetry (operations : List OperationId) (nextAttempt : Nat) :
    Except StoreError StoolapQueue := do
  let time ← toI64 nextAttempt (stoolapRange "retry timestamp")
  fence
  operations.foldlM (scheduleOne engine time) queue

/-- The rows that a claim selects. -/
def Claimable (time : Nat) (entry : OperationId × DeliveryRow) : Prop :=
  (entry.2.state = .pending ∨ entry.2.state = .retry) ∧
    (queue.retrySchedule[entry.1]?).all (fun retry => decide (retry.nextAttemptUnixMs ≤ time)) = true ∧
    (queue.scopeQuarantine[entry.1]?).isNone = true

instance (time : Nat) (entry : OperationId × DeliveryRow) : Decidable (queue.Claimable time entry) :=
  inferInstanceAs (Decidable (_ ∧ _))

def candidates (time limit : Nat) : List (OperationId × DeliveryRow) :=
  (sortByKey (fun entry => entry.2.order)
    (queue.outbox.toList.filter fun entry => decide (queue.Claimable time entry))).take (min limit i64Max)

def takeClaim (owner : ProcessInstanceId) (time : Nat) (digest : PayloadHash) (outbox : DeliveryTable)
    (operation : OperationId) : Except StoreError DeliveryTable :=
  match outbox[operation]? with
  | none => .error (.transient "Stoolap outbox claim lost a concurrent candidate")
  | some row =>
    if row.state = .pending ∨ row.state = .retry then
      .ok (outbox.insert operation { row with
        state := .sending
        schedule :=
          { everSent := true
            immutableHash := some digest
            payloadDigest := some digest
            inFlightOwner := some owner
            inFlightSinceUnixMs := some time } })
    else .error (.transient "Stoolap outbox claim lost a concurrent candidate")

def claimOne (owner : ProcessInstanceId) (time : Nat) (claims : DeliveryTable × List ClaimedOperation)
    (entry : OperationId × DeliveryRow) : Except StoreError (DeliveryTable × List ClaimedOperation) := do
  let digest ← engine.hash entry.2.operation
  require (entry.2.schedule.payloadDigest.all (fun stored => decide (stored = digest)) = true) digestMismatch
  let outbox ← takeClaim owner time digest claims.1 entry.1
  return (outbox, claims.2 ++ [{ operation := entry.2.operation, payloadDigest := digest }])

/-- The fence stands for the coordination check, the owner's included. -/
def claimOperations (owner : ProcessInstanceId) (now limit : Nat) :
    Except StoreError (StoolapQueue × List ClaimedOperation) := do
  require (limit ≠ 0) (.permanent "Stoolap outbox claim limit must be greater than zero")
  fence
  let time ← toI64 now (stoolapRange "claim timestamp")
  let claims ← (queue.candidates time limit).foldlM (claimOne engine owner time) (queue.outbox, [])
  return ({ queue with outbox := claims.1 }, claims.2)

def sentHash (row : DeliveryRow) : Except StoreError PayloadHash :=
  match row.schedule.immutableHash with
  | some stored => .ok stored
  | none => engine.hash row.operation

/-- What the planner sees of a row. -/
def queueEntry (row : DeliveryRow) : Except StoreError Queue.QueueEntry :=
  if Unsent row then
    .ok {
      localSequence := row.order
      operation := row.operation
      mutability := .mutableUnsent
      immutableHash := none
      cancellation := none }
  else do
    let hash ← sentHash engine row
    return {
      localSequence := row.order
      operation := row.operation
      mutability := .immutablePossiblyDelivered
      immutableHash := some hash
      cancellation := none }

def loadQueueEntries (maxOperations : Nat) : Except StoreError (List Queue.QueueEntry) :=
  ((waiting queue.outbox).take (min maxOperations i64Max)).mapM (queueEntry engine)

def supersede (queue : StoolapQueue) (supersession : Supersession) : Except StoreError StoolapQueue := do
  require ((queue.outbox[supersession.oldOperationId]?).any (fun row => decide (Unsent row)) = true)
    (queueChanged "compaction")
  require (supersession.oldOperationId ∉ queue.supersession) (stoolapError engine.uniqueViolation)
  return { queue with
    supersession := queue.supersession.insert supersession.oldOperationId
      (supersession.newOperationId, supersession.reason)
    retrySchedule := queue.retrySchedule.erase supersession.oldOperationId
    outbox := queue.outbox.erase supersession.oldOperationId }

/-- The queue is read before the transaction that the fence is checked in. -/
def compactOutbox (registry : Queue.OptimizationRegistry) (maxOperations : Nat) :
    Except StoreError (StoolapQueue × Queue.CompactionPlan) := do
  let entries ← queue.loadQueueEntries engine maxOperations
  let plan ← queueResult (Queue.planCompaction engine.codec entries registry maxOperations)
  fence
  let next ← plan.supersessions.foldlM (supersede engine) queue
  return (next, plan)

/-- Replace the envelope of an unsent row, and no other column. -/
def replaceEnvelope (operation : OperationId) (envelope : OperationEnvelope) (outbox : DeliveryTable) :
    Except StoreError DeliveryTable :=
  match outbox[operation]? with
  | none => .error (queueChanged "rebase")
  | some row =>
    if Unsent row then .ok (outbox.insert operation { row with operation := envelope })
    else .error (queueChanged "rebase")

def historyVersion (version : Option EntityVersion) : Option Nat :=
  version.filter fun value => decide (value ≤ i64Max)

def rewriteOne (loaded : ExtTreeMap OperationId OperationEnvelope) (queue : StoolapQueue)
    (rewrite : RebaseRewrite) : Except StoreError StoolapQueue :=
  match loaded[rewrite.operationId]? with
  | none => .error (.permanent "rebase operation disappeared")
  | some operation => do
    engine.encode { operation with baseVersion := rewrite.newBase }
    let outbox ← replaceEnvelope rewrite.operationId { operation with baseVersion := rewrite.newBase } queue.outbox
    return { queue with
      outbox
      rebaseHistory := queue.rebaseHistory ++
        [(rewrite.operationId, historyVersion rewrite.oldBase, historyVersion rewrite.newBase)] }

def rebaseOutbox (registry : Queue.OptimizationRegistry)
    (targets : List Queue.RebaseTarget) (maxOperations : Nat) : Except StoreError (StoolapQueue × Queue.RebasePlan) := do
  let entries ← queue.loadQueueEntries engine maxOperations
  let plan ← queueResult (Queue.planRebase engine.codec entries targets registry)
  let loaded : ExtTreeMap OperationId OperationEnvelope :=
    ExtTreeMap.ofList (entries.map fun entry => (entry.id, entry.operation))
  fence
  let next ← plan.rewrites.foldlM (rewriteOne engine loaded) queue
  return (next, plan)

end

end StoolapQueue

/-- The calls that write the outbox. -/
inductive DeliveryCall where
  | append (operation : OperationEnvelope)
  | rebase (fence : Except StoreError Unit) (registry : OptimizationRegistry)
      (targets : List RebaseTarget) (maxOperations : Nat)
  | compact (fence : Except StoreError Unit) (registry : OptimizationRegistry) (maxOperations : Nat)
  | markSending (fence : Except StoreError Unit) (operations : List OperationId)
  | markRetry (fence : Except StoreError Unit) (operations : List OperationId) (nextAttempt : Nat)
  | claim (fence : Except StoreError Unit) (owner : ProcessInstanceId) (now limit : Nat)

namespace StoolapQueue
variable (engine : StoolapEngine)

/-- What a call commits. -/
def committed (queue : StoolapQueue) : DeliveryCall → Except StoreError StoolapQueue
  | .append operation => queue.insertOutbox engine operation
  | .rebase fence registry targets maxOperations =>
    (queue.rebaseOutbox engine fence registry targets maxOperations).map Prod.fst
  | .compact fence registry maxOperations =>
    (queue.compactOutbox engine fence registry maxOperations).map Prod.fst
  | .markSending fence operations => queue.transitionOperations engine fence operations .sending
  | .markRetry fence operations nextAttempt => queue.scheduleRetry engine fence operations nextAttempt
  | .claim fence owner now limit => (queue.claimOperations engine fence owner now limit).map Prod.fst

def step (queue : StoolapQueue) (call : DeliveryCall) : StoolapQueue :=
  (commitOrRollback queue (queue.committed engine call)).1

variable {engine} {queue : StoolapQueue}

theorem hash_eq_ok : engine.hash envelope = .ok digest ↔ semanticEnvelopeHash engine.codec envelope = .ok digest :=
  queueResult_eq_ok

theorem insertOutbox_cases (inserted : queue.insertOutbox engine envelope = .ok next) :
    (envelope.operationId ∈ queue.outbox ∧ next = queue) ∨
      envelope.operationId ∉ queue.outbox ∧ ∃ digest, semanticEnvelopeHash engine.codec envelope = .ok digest ∧
        next = { queue with outbox := insertRow queue.outbox envelope (.new digest) } := by
  unfold insertOutbox at inserted
  split at inserted
  · rename_i known
    exact .inl ⟨known, (Except.ok.inj inserted).symm⟩
  · rename_i fresh
    obtain ⟨-, inserted⟩ := check_bind_eq_ok.mp inserted
    obtain ⟨digest, hashed, inserted⟩ := bind_eq_ok_iff.mp inserted
    exact .inr ⟨fresh, digest, hash_eq_ok.mp hashed, (Except.ok.inj inserted).symm⟩

end StoolapQueue

end Aequora.Store
