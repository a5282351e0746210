import Aequora.Base.KeyOrder
import Aequora.Base.Word

/-! Identities and wire messages shared by the authority, its stores and the clients. Counters are
natural numbers below the `u64` bound wherever the code adds to them. -/

namespace Aequora.Protocol

open Std Aequora.Base

/-- What a UUID identifies: the members of the `uuid_id!` family. -/
inductive IdKind where
  | entity | operation | device | actor | tenant | session | request | syncScope | node | snapshot
  | correlation | event | job | authority | authorityInstance | authorityTransition | subscription
  | scopeTransition

structure UuidId (kind : IdKind) where
  uuid : BitVec 128
deriving DecidableEq

instance {kind : IdKind} : Ord (UuidId kind) := ⟨compareOn UuidId.uuid⟩
instance {kind : IdKind} : TransOrd (UuidId kind) := inferInstanceAs (TransCmp (compareOn UuidId.uuid))
instance {kind : IdKind} : LawfulEqOrd (UuidId kind) :=
  lawfulEq_compareOn UuidId.uuid (by rintro ⟨_⟩ ⟨_⟩ rfl; rfl)

abbrev EntityId := UuidId .entity
abbrev OperationId := UuidId .operation
abbrev DeviceId := UuidId .device
abbrev ActorId := UuidId .actor
abbrev TenantId := UuidId .tenant
abbrev SessionId := UuidId .session
abbrev RequestId := UuidId .request
abbrev SyncScopeId := UuidId .syncScope
abbrev NodeId := UuidId .node
abbrev SnapshotId := UuidId .snapshot
abbrev CorrelationId := UuidId .correlation
abbrev EventId := UuidId .event
abbrev JobId := UuidId .job
abbrev AuthorityId := UuidId .authority
abbrev AuthorityInstanceId := UuidId .authorityInstance
abbrev AuthorityTransitionId := UuidId .authorityTransition
abbrev SubscriptionId := UuidId .subscription
abbrev ScopeTransitionId := UuidId .scopeTransition

def AuthorityId.legacyUnbound : AuthorityId := ⟨0⟩

abbrev AuthorityEpoch := Nat

def AuthorityEpoch.initial : AuthorityEpoch := 1

abbrev EntityVersion := Nat
abbrev Sequence := Nat

def EntityVersion.initial : EntityVersion := 1

structure AuthorityTimeline where
  authorityId : AuthorityId
  epoch : AuthorityEpoch
deriving DecidableEq

inductive LineageRef where
  | operation (id : OperationId)
  | event (id : EventId)
  | job (id : JobId)
deriving DecidableEq

structure LineageContext where
  correlationId : CorrelationId
  causedBy : Option LineageRef
deriving DecidableEq

def LineageContext.derived (lineage : LineageContext) (causedBy : LineageRef) : LineageContext :=
  { correlationId := lineage.correlationId, causedBy := some causedBy }

/-- A missing root correlation falls back to the operation's own identity. -/
def LineageContext.resolvedForOperation (lineage : LineageContext) (operationId : OperationId) : LineageContext :=
  if lineage.correlationId.uuid = 0 then
    { correlationId := ⟨operationId.uuid⟩, causedBy := lineage.causedBy }
  else lineage

structure EntityRef where
  entityType : UInt16
  entityId : EntityId
deriving DecidableEq

instance : Ord EntityRef := ⟨compareOn fun entity => (entity.entityType, entity.entityId)⟩
instance : TransOrd EntityRef :=
  inferInstanceAs (TransCmp (compareOn fun entity : EntityRef => (entity.entityType, entity.entityId)))
instance : LawfulEqOrd EntityRef :=
  lawfulEq_compareOn (fun entity : EntityRef => (entity.entityType, entity.entityId))
    (by rintro ⟨_, _⟩ ⟨_, _⟩ same; cases same; rfl)

/-! The orders of the keys that tables use. -/

instance operationIdLawfulBEq : LawfulBEq OperationId := inferInstance
instance operationIdTransOrd : TransOrd OperationId := inferInstance
instance syncScopeIdTransOrd : TransOrd SyncScopeId := inferInstance
instance entityKeyTransOrd : TransOrd (TenantId × EntityRef) := inferInstance
instance operationKeyTransOrd : TransOrd (TenantId × OperationId) := inferInstance
instance scopeKeyTransOrd : TransOrd (TenantId × SyncScopeId) := inferInstance
instance scopedEntityTransOrd : TransOrd (SyncScopeId × EntityRef) := inferInstance
instance snapshotKeyTransOrd : TransOrd (TenantId × SnapshotId) := inferInstance
instance subscriptionIdTransOrd : TransOrd SubscriptionId := inferInstance
instance deviceScopeTransOrd : TransOrd (DeviceId × SyncScopeId) := inferInstance
instance membershipKeyTransOrd : TransOrd (UInt32 × EntityRef) := inferInstance

structure Cursor where
  scope : SyncScopeId
  sequence : Sequence
  authorityId : AuthorityId
  authorityEpoch : AuthorityEpoch
deriving DecidableEq

def Cursor.legacy (scope : SyncScopeId) (sequence : Sequence) : Cursor where
  scope
  sequence
  authorityId := .legacyUnbound
  authorityEpoch := .initial

def Cursor.timeline (cursor : Cursor) : AuthorityTimeline :=
  { authorityId := cursor.authorityId, epoch := cursor.authorityEpoch }

def Cursor.sameTimeline (cursor other : Cursor) : Bool :=
  cursor.authorityId == other.authorityId && cursor.authorityEpoch == other.authorityEpoch

structure HybridTimestamp where
  physicalMs : Int
  logical : UInt32
  node : NodeId
deriving DecidableEq

structure OperationMetadata where
  traceId : Option String
  dependencies : List OperationId
  lineage : LineageContext
deriving DecidableEq

/-- One client operation as it travels to the authority. -/
structure OperationEnvelope where
  protocolVersion : UInt16
  operationId : OperationId
  tenantId : TenantId
  actorId : ActorId
  deviceId : DeviceId
  entity : EntityRef
  baseVersion : Option EntityVersion
  createdAt : HybridTimestamp
  (schemaVersion operationKind : UInt16)
  payload : List UInt8
  metadata : OperationMetadata
deriving DecidableEq

structure Partition where
  kind : UInt16
  value : List UInt8
deriving DecidableEq

structure SessionMetadata where
  sessionId : SessionId
  deviceId : DeviceId
  actorId : ActorId
  tenantId : TenantId
  scopeId : SyncScopeId
  partitions : List Partition

structure ClientLimits where
  (maxChanges maxResponseBytes : Nat)

structure SyncRequest where
  protocol : UInt16
  requestId : RequestId
  session : SessionMetadata
  cursor : Option Cursor
  operations : List OperationEnvelope
  limits : ClientLimits

/-- The authority's durable answer to a committed operation. -/
structure OperationAck where
  operationId : OperationId
  eventId : EventId
  lineage : LineageContext
  entityVersion : EntityVersion
  sequence : Sequence
  duplicate : Bool
deriving DecidableEq

inductive RejectionCode where
  | identityMismatch | unauthorized | invalidOperation | businessRule | dependency
  | schemaIncompatible
deriving DecidableEq

structure OperationRejection where
  operationId : OperationId
  code : RejectionCode
  message : String
deriving DecidableEq

inductive ConflictPolicy where
  | reject | serverWins | clientWins | customMerge | manualResolution | fieldMerge
  | commutativeOperation | crdt | lastWriterWins
deriving DecidableEq

structure Conflict where
  operationId : OperationId
  entity : EntityRef
  (clientBase serverVersion : Option EntityVersion)
  policy : ConflictPolicy
  message : String
deriving DecidableEq

inductive ChangeKind where
  | upsert | tombstone
deriving DecidableEq

/-- One authoritative journal event as clients receive it. -/
structure RemoteChange where
  tenantId : TenantId
  scopeId : SyncScopeId
  sequence : Sequence
  operationId : OperationId
  eventId : EventId
  lineage : LineageContext
  entity : EntityRef
  version : EntityVersion
  changeKind : ChangeKind
  payload : List UInt8
  timestamp : HybridTimestamp
deriving DecidableEq

inductive ResyncReason where
  | cursorExpired | scopeChanged | schemaIncompatible | deviceInactive | corruptionDetected
deriving DecidableEq

inductive SyncDirective where
  | continue
  | upgradeRequired (minimum current : UInt16)
  | resyncRequired (reason : ResyncReason)
  | authorityChanged (authorityId : AuthorityId) (previousEpoch currentEpoch : AuthorityEpoch)
deriving DecidableEq

structure SyncResponse where
  protocol : UInt16
  directive : SyncDirective
  acknowledged : List OperationAck
  rejected : List OperationRejection
  conflicts : List Conflict
  changes : List RemoteChange
  nextCursor : Cursor
  hasMore : Bool
  serverTime : HybridTimestamp

structure SnapshotEntity where
  entity : EntityRef
  version : EntityVersion
  payload : List UInt8
  tombstone : Bool
deriving DecidableEq

def RemoteChange.snapshotEntity (change : RemoteChange) : SnapshotEntity where
  entity := change.entity
  version := change.version
  payload := change.payload
  tombstone := change.changeKind == .tombstone

structure SnapshotLimits where
  (maxEntities maxPayloadBytes : Nat)

structure BootstrapRequest where
  protocol : UInt16
  requestId : RequestId
  session : SessionMetadata
  snapshotId : Option SnapshotId
  offset : Nat
  limits : SnapshotLimits

/-- One page of a bootstrap snapshot. -/
structure BootstrapResponse where
  protocol : UInt16
  snapshotId : SnapshotId
  cursor : Cursor
  offset : Nat
  entities : List SnapshotEntity
  nextOffset : Nat
  hasMore : Bool
  serverTime : HybridTimestamp

end Aequora.Protocol
