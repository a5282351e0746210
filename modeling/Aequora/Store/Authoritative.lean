import Aequora.Base.Run
import Aequora.Base.SortedTable
import Aequora.Protocol.Types
import Mathlib.Data.Finset.Insert

/-! The atomic authoritative reference store, whose tables are published together by one commit that
can be made to fail at each of its phases. -/

namespace Aequora.Store

open Std Aequora.Base Aequora.Protocol

structure AuthorityCommitContext where
  authorityId : AuthorityId
  epoch : AuthorityEpoch
  instanceId : AuthorityInstanceId
  fenceToken : Nat
deriving DecidableEq

structure CurrentEntity where
  version : EntityVersion
  payload : List UInt8
  tombstone : Bool

structure EntitySnapshot where
  entity : EntityRef
  tenantId : TenantId
  current : CurrentEntity

/-- Atomic authoritative commit requested after validation and execution. -/
structure CommitOperation where
  authority : Option AuthorityCommitContext
  operationId : OperationId
  eventId : EventId
  operationLineage : LineageContext
  actorId : ActorId
  deviceId : DeviceId
  operationKind : UInt16
  tenantId : TenantId
  scopeId : SyncScopeId
  entity : EntityRef
  expectedVersion : Option EntityVersion
  nextVersion : EntityVersion
  payload : List UInt8
  changeKind : ChangeKind
  timestamp : HybridTimestamp
  commandDigest : Vector UInt8 32

/-- Whether the requested version is exactly the required next value. -/
def CommitOperation.hasValidVersionTransition (commit : CommitOperation) : Bool :=
  match commit.expectedVersion with
  | none => commit.nextVersion == EntityVersion.initial
  | some expected =>
    match checkedAdd expected 1 with
    | some next => next == commit.nextVersion
    | none => false

def CommitOperation.eventLineage (commit : CommitOperation) : LineageContext :=
  commit.operationLineage.derived (.operation commit.operationId)

/-- Payload-free evidence of one committed command. -/
structure AuditRecord where
  authority : Option AuthorityTimeline
  offset : Nat
  tenantId : TenantId
  operationId : OperationId
  eventId : EventId
  operationLineage : LineageContext
  actorId : ActorId
  deviceId : DeviceId
  operationKind : UInt16
  entity : EntityRef
  entityVersion : EntityVersion
  commandDigest : Vector UInt8 32
  timestamp : HybridTimestamp

inductive CommitOutcome where
  | applied (ack : OperationAck)
  | duplicate (ack : OperationAck)
  | versionChanged (current : Option EntityVersion)
  | rejected (rejection : OperationRejection)
deriving DecidableEq

inductive StoreErrorKind where
  | transient | permanent
deriving DecidableEq

structure StoreError where
  kind : StoreErrorKind
  message : String
deriving DecidableEq

def StoreError.transient (message : String) : StoreError := { kind := .transient, message }

def StoreError.permanent (message : String) : StoreError := { kind := .permanent, message }

/-- The phases of a commit at which a failure can be injected. -/
inductive CommitFailPoint where
  | beforeWrite | afterWrite | beforeJournal | afterJournal | beforeLedger | afterLedger
  | beforeAudit | afterAudit | beforeCommit | afterCommit
deriving DecidableEq

/-- The `Debug` name of a fail point. -/
def CommitFailPoint.name : CommitFailPoint → String
  | .beforeWrite => "BeforeWrite"
  | .afterWrite => "AfterWrite"
  | .beforeJournal => "BeforeJournal"
  | .afterJournal => "AfterJournal"
  | .beforeLedger => "BeforeLedger"
  | .afterLedger => "AfterLedger"
  | .beforeAudit => "BeforeAudit"
  | .afterAudit => "AfterAudit"
  | .beforeCommit => "BeforeCommit"
  | .afterCommit => "AfterCommit"

def CommitFailPoint.failure (point : CommitFailPoint) : StoreError :=
  .transient ("simulated authoritative failure at " ++ point.name)

def failAt (selected : Option CommitFailPoint) (current : CommitFailPoint) : Except StoreError Unit :=
  if selected = some current then .error current.failure else .ok ()

abbrev EntityKey := TenantId × EntityRef
abbrev OperationKey := TenantId × OperationId
abbrev ScopeKey := TenantId × SyncScopeId
abbrev SnapshotKey := TenantId × SnapshotId

structure SnapshotDescriptor where
  snapshotId : SnapshotId
  cursor : Cursor
deriving DecidableEq

structure CapturedSnapshot where
  descriptor : SnapshotDescriptor
  entities : List SnapshotEntity
deriving DecidableEq

structure SnapshotPage where
  descriptor : SnapshotDescriptor
  entities : List SnapshotEntity
  nextOffset : Nat
  hasMore : Bool

structure AuthoritativeState where
  entities : ExtTreeMap EntityKey EntitySnapshot
  ledger : ExtTreeMap OperationKey OperationAck
  operationDigests : ExtTreeMap OperationKey (Vector UInt8 32 × UInt16)
  operationLineages : ExtTreeMap OperationKey LineageContext
  journal : List RemoteChange
  (sequences journalFloors : ExtTreeMap ScopeKey Sequence)
  entityScopes : ExtTreeMap EntityKey (Finset SyncScopeId)
  snapshots : ExtTreeMap SnapshotKey CapturedSnapshot
  audit : List AuditRecord

def AuthoritativeState.default : AuthoritativeState where
  entities := ∅
  ledger := ∅
  operationDigests := ∅
  operationLineages := ∅
  journal := []
  sequences := ∅
  journalFloors := ∅
  entityScopes := ∅
  snapshots := ∅
  audit := []

section
variable (commit : CommitOperation)

def CommitOperation.operationKey : OperationKey :=
  (commit.tenantId, commit.operationId)

def CommitOperation.entityKey : EntityKey := (commit.tenantId, commit.entity)

def CommitOperation.scopeKey : ScopeKey := (commit.tenantId, commit.scopeId)

end

def AuthoritativeState.currentVersion (state : AuthoritativeState) (key : EntityKey) : Option EntityVersion :=
  state.entities[key]?.map fun snapshot => snapshot.current.version

def AuthoritativeState.nextSequence (state : AuthoritativeState) (key : ScopeKey) : Sequence :=
  state.sequences[key]?.elim 1 fun sequence => saturatingAdd sequence 1

section Staged
variable (commit : CommitOperation)

def CommitOperation.entitySnapshot : EntitySnapshot where
  entity := commit.entity
  tenantId := commit.tenantId
  current :=
    { version := commit.nextVersion
      payload := commit.payload
      tombstone := commit.changeKind == .tombstone }

def CommitOperation.change (sequence : Sequence) : RemoteChange where
  tenantId := commit.tenantId
  scopeId := commit.scopeId
  sequence
  operationId := commit.operationId
  eventId := commit.eventId
  lineage := commit.eventLineage
  entity := commit.entity
  version := commit.nextVersion
  changeKind := commit.changeKind
  payload := commit.payload
  timestamp := commit.timestamp

def CommitOperation.ack (sequence : Sequence) : OperationAck where
  operationId := commit.operationId
  eventId := commit.eventId
  lineage := commit.eventLineage
  entityVersion := commit.nextVersion
  sequence
  duplicate := false

def CommitOperation.auditRecord (auditLength : Nat) : AuditRecord where
  authority := commit.authority.map fun authority =>
    { authorityId := authority.authorityId, epoch := authority.epoch }
  offset := saturatingAdd (min auditLength u64Max) 1
  tenantId := commit.tenantId
  operationId := commit.operationId
  eventId := commit.eventId
  operationLineage := commit.operationLineage
  actorId := commit.actorId
  deviceId := commit.deviceId
  operationKind := commit.operationKind
  entity := commit.entity
  entityVersion := commit.nextVersion
  commandDigest := commit.commandDigest
  timestamp := commit.timestamp

end Staged

structure StagedCommit where
  nextSequence : Sequence
  entitySnapshot : EntitySnapshot
  change : RemoteChange
  ack : OperationAck
  audit : AuditRecord

section
variable (state : AuthoritativeState) (commit : CommitOperation)

/-- Prepare the writes of a commit, failing at the selected phase. -/
def AuthoritativeState.stage
    (failpoint : Option CommitFailPoint) : Except StoreError StagedCommit := do
  failAt failpoint .beforeWrite
  let nextSequence := state.nextSequence commit.scopeKey
  let entitySnapshot := commit.entitySnapshot
  failAt failpoint .afterWrite
  failAt failpoint .beforeJournal
  let change := commit.change nextSequence
  failAt failpoint .afterJournal
  failAt failpoint .beforeLedger
  let ack := commit.ack nextSequence
  failAt failpoint .afterLedger
  failAt failpoint .beforeAudit
  let audit := commit.auditRecord state.audit.length
  failAt failpoint .afterAudit
  failAt failpoint .beforeCommit
  return { nextSequence, entitySnapshot, change, ack, audit }

/-- Write every staged table in one step. -/
def AuthoritativeState.publish
    (staged : StagedCommit) : AuthoritativeState :=
  { state with
    entities := state.entities.insert commit.entityKey staged.entitySnapshot
    entityScopes := state.entityScopes.insert commit.entityKey
      (insert commit.scopeId (state.entityScopes[commit.entityKey]?.getD ∅))
    sequences := state.sequences.insert commit.scopeKey staged.nextSequence
    journal := state.journal ++ [staged.change]
    operationLineages := state.operationLineages.insert commit.operationKey commit.operationLineage
    operationDigests := state.operationDigests.insert commit.operationKey
      (commit.commandDigest, commit.operationKind)
    ledger := state.ledger.insert commit.operationKey staged.ack
    audit := state.audit ++ [staged.audit] }

end

structure InMemoryAuthoritativeStore where
  state : AuthoritativeState
  commitFailures : List CommitFailPoint

def InMemoryAuthoritativeStore.default : InMemoryAuthoritativeStore where
  state := .default
  commitFailures := []

namespace InMemoryAuthoritativeStore
variable (store : InMemoryAuthoritativeStore)

def injectCommitFailure (failpoint : CommitFailPoint) : InMemoryAuthoritativeStore :=
  { store with commitFailures := store.commitFailures ++ [failpoint] }

def readEntity (tenant : TenantId) (entity : EntityRef) : Option EntitySnapshot :=
  store.state.entities[(tenant, entity)]?

def operationResult (tenant : TenantId) (operationId : OperationId) : Option OperationAck :=
  store.state.ledger[(tenant, operationId)]?

def operationLineage (tenant : TenantId) (operationId : OperationId) : Option LineageContext :=
  store.state.operationLineages[(tenant, operationId)]?

section
variable (commit : CommitOperation)

/-- The answer to a commit whose operation the ledger already records. -/
def retry (previous : OperationAck) : Except StoreError CommitOutcome :=
  if store.state.operationLineages[commit.operationKey]? ≠ some commit.operationLineage then
    .error (.permanent "retry changed operation lineage for an existing OperationId")
  else if store.state.operationDigests[commit.operationKey]? ≠
      some (commit.commandDigest, commit.operationKind) then
    .error (.permanent "OperationId reuse changed the canonical payload digest or operation kind")
  else .ok (.duplicate previous)

/-- The answer to a commit of a new operation on the version it expects. -/
def commitNew : InMemoryAuthoritativeStore × Except StoreError CommitOutcome :=
  let failpoint := store.commitFailures.head?
  let popped := { store with commitFailures := store.commitFailures.tail }
  match store.state.stage commit failpoint with
  | .error error => (popped, .error error)
  | .ok staged =>
    let published := { popped with state := store.state.publish commit staged }
    match failAt failpoint .afterCommit with
    | .error error => (published, .error error)
    | .ok () => (published, .ok (.applied staged.ack))

def commitOperation : InMemoryAuthoritativeStore × Except StoreError CommitOutcome :=
  if !commit.hasValidVersionTransition then
    (store, .error (.permanent "authoritative entity version must advance by exactly one"))
  else
    match store.state.ledger[commit.operationKey]? with
    | some previous => (store, store.retry commit previous)
    | none =>
      let current := store.state.currentVersion commit.entityKey
      if current ≠ commit.expectedVersion then (store, .ok (.versionChanged current))
      else store.commitNew commit

end

def minimumRetainedCursor (tenant : TenantId) (scope : SyncScopeId) : Sequence :=
  store.state.journalFloors[(tenant, scope)]?.getD 0

end InMemoryAuthoritativeStore

def AuthoritativeState.scopeJournal (state : AuthoritativeState) (key : ScopeKey) : List RemoteChange :=
  state.journal.filter fun change => decide ((change.tenantId, change.scopeId) = key)

structure ChangePage where
  changes : List RemoteChange
  (nextSequence journalHead : Sequence)
  hasMore : Bool

/-- Take changes while the count and the payload bytes stay within their limits; the flag says
whether a change was left over. -/
def takeChanges (limit maxPayloadBytes : Nat) : Nat → Nat → List RemoteChange → List RemoteChange × Bool
  | _, _, [] => ([], false)
  | taken, payloadBytes, change :: rest =>
    if taken = limit ∨ saturatingAdd payloadBytes change.payload.length > maxPayloadBytes then ([], true)
    else
      let (changes, hasMore) :=
        takeChanges limit maxPayloadBytes (taken + 1)
          (saturatingAdd payloadBytes change.payload.length) rest
      (change :: changes, hasMore)

def InMemoryAuthoritativeStore.readChangesAfter (store : InMemoryAuthoritativeStore)
    (tenant : TenantId) (scope : SyncScopeId) (sequence : Sequence) (limit maxPayloadBytes : Nat) :
    ChangePage :=
  let matching := store.state.scopeJournal (tenant, scope)
  let journalHead := max ((matching.map RemoteChange.sequence).max?.getD sequence) sequence
  let (changes, hasMore) := takeChanges limit maxPayloadBytes 0 0
    (matching.filter fun change => sequence < change.sequence)
  { changes
    nextSequence := changes.getLast?.elim sequence RemoteChange.sequence
    journalHead
    hasMore }

def EntitySnapshot.snapshotEntity (snapshot : EntitySnapshot) : SnapshotEntity where
  entity := snapshot.entity
  version := snapshot.current.version
  payload := snapshot.current.payload
  tombstone := snapshot.current.tombstone

section
variable (state : AuthoritativeState) (tenant : TenantId) (scope : SyncScopeId)

/-- The entities of a tenant that some change of the scope touched, as they are now. -/
def AuthoritativeState.scopeEntities : List SnapshotEntity :=
  (state.entities.toList.filter fun entry => decide (entry.1.1 = tenant ∧
    scope ∈ state.entityScopes[(tenant, entry.1.2)]?.getD ∅)).map fun entry => entry.2.snapshotEntity

/-- The snapshot of a scope under the given fresh identity. -/
def AuthoritativeState.capture (snapshotId : SnapshotId) : CapturedSnapshot where
  descriptor :=
    { snapshotId
      cursor := .legacy scope (state.sequences[(tenant, scope)]?.getD 0) }
  entities := sortByKey SnapshotEntity.entity (state.scopeEntities tenant scope)

end

section
variable (store : InMemoryAuthoritativeStore) (tenant : TenantId) (scope : SyncScopeId)

def InMemoryAuthoritativeStore.createSnapshot (snapshotId : SnapshotId) : InMemoryAuthoritativeStore × SnapshotDescriptor :=
  let captured := store.state.capture tenant scope snapshotId
  ({ store with state :=
      { store.state with snapshots := store.state.snapshots.insert (tenant, snapshotId) captured } },
    captured.descriptor)

/-- The default capture in a timeline: the answer is bound to it, the stored snapshot is not. -/
def InMemoryAuthoritativeStore.createSnapshotInTimeline (timeline : AuthorityTimeline) (snapshotId : SnapshotId) :
    InMemoryAuthoritativeStore × SnapshotDescriptor :=
  let (created, descriptor) := store.createSnapshot tenant scope snapshotId
  (created, { descriptor with cursor := { descriptor.cursor with
    authorityId := timeline.authorityId, authorityEpoch := timeline.epoch } })

end

/-- Take entities while the count and the payload bytes stay within their limits. -/
def takeEntities (maxEntities maxPayloadBytes : Nat) : Nat → Nat → List SnapshotEntity → List SnapshotEntity
  | _, _, [] => []
  | taken, payloadBytes, entity :: rest =>
    if taken = maxEntities ∨ saturatingAdd payloadBytes entity.payload.length > maxPayloadBytes then []
    else entity :: takeEntities maxEntities maxPayloadBytes (taken + 1)
      (saturatingAdd payloadBytes entity.payload.length) rest

def InMemoryAuthoritativeStore.readSnapshot (store : InMemoryAuthoritativeStore) (tenant : TenantId)
    (snapshotId : SnapshotId) (offset maxEntities maxPayloadBytes : Nat) : Except StoreError SnapshotPage :=
  match store.state.snapshots[(tenant, snapshotId)]? with
  | none => .error (.permanent "snapshot is missing or expired")
  | some snapshot =>
    if offset > snapshot.entities.length then
      .error (.permanent "snapshot offset is beyond the entity count")
    else
      let entities := takeEntities maxEntities maxPayloadBytes 0 0 (snapshot.entities.drop offset)
      let nextOffset := saturatingAdd offset entities.length
      .ok
        { descriptor := snapshot.descriptor
          entities
          nextOffset
          hasMore := nextOffset < snapshot.entities.length }

/-- One call on the store that can change what it holds. -/
inductive StoreAction where
  | injectCommitFailure (failpoint : CommitFailPoint)
  | commitOperation (commit : CommitOperation)
  | createSnapshot (tenant : TenantId) (scope : SyncScopeId) (snapshotId : SnapshotId)

def InMemoryAuthoritativeStore.step (store : InMemoryAuthoritativeStore) :
    StoreAction → InMemoryAuthoritativeStore
  | .injectCommitFailure failpoint => store.injectCommitFailure failpoint
  | .commitOperation commit => (store.commitOperation commit).1
  | .createSnapshot tenant scope snapshotId => (store.createSnapshot tenant scope snapshotId).1

end Aequora.Store
