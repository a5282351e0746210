import Aequora.Authority.Controller
import Mathlib.Algebra.GroupWithZero.Nat

/-! What stands in front of every operation: the write permission, the validation of requests, the
memory budgets, and the application's own functions. -/

namespace Aequora.Server

open Aequora.Base Aequora.Protocol Aequora.Store Aequora.Authority

structure AuthContext where
  actorId : ActorId
  tenantId : TenantId
  deviceId : DeviceId
deriving DecidableEq

structure ProtocolLimits where
  (minimumProtocol currentProtocol : UInt16)
  (maxOperations maxOperationBytes maxDependencies maxTraceIdBytes maxPartitions : Nat)
  maxPartitionBytes : Nat

def ProtocolLimits.default : ProtocolLimits where
  minimumProtocol := 1
  currentProtocol := 1
  maxOperations := 256
  maxOperationBytes := 256 * 1024
  maxDependencies := 32
  maxTraceIdBytes := 128
  maxPartitions := 32
  maxPartitionBytes := 1024

inductive ValidationError where
  | protocol (actual minimum current : UInt16)
  | cursorScope
  | batchSize (actual maximum : Nat)
  | duplicateOperation (operation : OperationId)
  | envelopeProtocol (operation : OperationId)
  | payloadSize (operation : OperationId) (maximum : Nat)
  | dependencyCount (operation : OperationId) (maximum : Nat)
  | selfDependency (operation : OperationId)
  | duplicateDependency (operation dependency : OperationId)
  | traceId (operation : OperationId) (maximum : Nat)
  | zeroValue (operation : OperationId) (field : String)
  | partitionCount (actual maximum : Nat)
  | partition (index maximum : Nat)
  | bootstrapOffset
deriving DecidableEq

/-- The first invalid partition selector, by position. -/
def validatePartitions (limits : ProtocolLimits) : Nat → List Partition → Except ValidationError Unit
  | _, [] => .ok ()
  | index, partition :: rest =>
    if partition.kind = 0 ∨ partition.value = [] ∨ partition.value.length > limits.maxPartitionBytes then
      .error (.partition index limits.maxPartitionBytes)
    else validatePartitions limits (index + 1) rest

def validateSession (session : SessionMetadata) (limits : ProtocolLimits) : Except ValidationError Unit :=
  if session.partitions.length > limits.maxPartitions then
    .error (.partitionCount session.partitions.length limits.maxPartitions)
  else validatePartitions limits 0 session.partitions

def firstRepeated : List OperationId → List OperationId → Option OperationId
  | _, [] => none
  | seen, id :: rest => if id ∈ seen then some id else firstRepeated (id :: seen) rest

def validateOperation (operation : OperationEnvelope) (requestProtocol : UInt16)
    (limits : ProtocolLimits) : Except ValidationError Unit := do
  if operation.entity.entityType = 0 then throw (.zeroValue operation.operationId "entity type")
  if operation.baseVersion = some 0 then throw (.zeroValue operation.operationId "base version")
  if operation.protocolVersion ≠ requestProtocol then throw (.envelopeProtocol operation.operationId)
  if operation.payload.length > limits.maxOperationBytes then
    throw (.payloadSize operation.operationId limits.maxOperationBytes)
  if operation.metadata.dependencies.length > limits.maxDependencies then
    throw (.dependencyCount operation.operationId limits.maxDependencies)
  if operation.operationId ∈ operation.metadata.dependencies then
    throw (.selfDependency operation.operationId)
  if let some dependency := firstRepeated [] operation.metadata.dependencies then
    throw (.duplicateDependency operation.operationId dependency)
  if operation.metadata.traceId.any fun trace => trace.utf8ByteSize > limits.maxTraceIdBytes then
    throw (.traceId operation.operationId limits.maxTraceIdBytes)

/-- Validate the operations of a batch in order, refusing a repeated identity. -/
def validateOperations (requestProtocol : UInt16) (limits : ProtocolLimits) :
    List OperationId → List OperationEnvelope → Except ValidationError Unit
  | _, [] => .ok ()
  | seen, operation :: rest => do
    validateOperation operation requestProtocol limits
    if operation.operationId ∈ seen then throw (.duplicateOperation operation.operationId)
    validateOperations requestProtocol limits (operation.operationId :: seen) rest

def validateRequest (request : SyncRequest) (limits : ProtocolLimits) : Except ValidationError Unit := do
  if request.protocol < limits.minimumProtocol ∨ request.protocol > limits.currentProtocol then
    throw (.protocol request.protocol limits.minimumProtocol limits.currentProtocol)
  if request.cursor.any fun cursor => cursor.scope != request.session.scopeId then throw .cursorScope
  validateSession request.session limits
  if request.operations.length > limits.maxOperations then
    throw (.batchSize request.operations.length limits.maxOperations)
  validateOperations request.protocol limits [] request.operations

def validateBootstrapRequest (request : BootstrapRequest) (limits : ProtocolLimits) :
    Except ValidationError Unit := do
  if request.protocol < limits.minimumProtocol ∨ request.protocol > limits.currentProtocol then
    throw (.protocol request.protocol limits.minimumProtocol limits.currentProtocol)
  if request.snapshotId = none ∧ request.offset ≠ 0 then throw .bootstrapOffset
  validateSession request.session limits

structure ExecutionError where
  code : RejectionCode
  message : String
deriving DecidableEq

structure AuthoritativeMutation where
  payload : List UInt8
  changeKind : ChangeKind

/-- The application's domain logic, as the deterministic functions its contract asks for. -/
structure OperationExecutor where
  authorizeScope : AuthContext → SessionMetadata → Except ExecutionError Unit
  authorize : AuthContext → OperationEnvelope → Except ExecutionError Unit
  execute : AuthContext → OperationEnvelope → Option CurrentEntity →
    Except ExecutionError AuthoritativeMutation

/-- Authorizes every operation and copies its payload; kind 2 deletes. -/
def allowAllExecutor : OperationExecutor where
  authorizeScope _ _ := .ok ()
  authorize _ _ := .ok ()
  execute _ operation _ := .ok
    { payload := operation.payload
      changeKind := if operation.operationKind = 2 then .tombstone else .upsert }

/-- Current and candidate state supplied to a conflict merger. -/
structure MergeInput where
  operation : OperationEnvelope
  currentPayload : List UInt8
  currentTombstone : Bool
  candidatePayload : List UInt8
  candidateKind : ChangeKind

inductive MergeDecision where
  | merged (payload : List UInt8) (changeKind : ChangeKind)
  | unresolved (message : String)

structure ConflictResolver where
  policy : UInt16 → ConflictPolicy
  merge : MergeInput → Except String MergeDecision

def rejectConflicts : ConflictResolver where
  policy _ := .reject
  merge _ := .ok (.unresolved "no deterministic merger is registered")

inductive VersionCheck where
  | current
  | missing
  | diverged (client : Option EntityVersion) (server : EntityVersion)

/-- Creation requires no base and no current entity; updates require exact equality. -/
def checkVersion : Option EntityVersion → Option EntityVersion → VersionCheck
  | none, none => .current
  | some client, some server => if client = server then .current else .diverged (some client) server
  | some _, none => .missing
  | none, some server => .diverged none server

inductive DependencyError where
  | duplicate (operation : OperationId)
  | cycle
deriving DecidableEq

inductive ServerError where
  | validation (error : ValidationError)
  | identityMismatch
  | store (error : StoreError)
  | versionOverflow
  | dependency (error : DependencyError)
  | scopeAuthorization (error : ExecutionError)
  | snapshotNoProgress
  | responseLimit
  | codec (message : String)
  | memoryBudget (domain : String) (actual maximum : Nat)
  | merge (message : String)
  | authority (error : AuthorityError)
deriving DecidableEq

structure ServerConfig where
  limits : ProtocolLimits
  (maxPullChanges responseBytes decodeBytes pendingDecodeRecords maxRecordsPerChunk : Nat)
  maxChunkBytes : Nat

def payloadBytes (operations : List OperationEnvelope) : Nat :=
  min (operations.map fun operation => operation.payload.length).sum u64Max

def ServerConfig.validateTypedRequestBudget (config : ServerConfig) (request : SyncRequest) :
    Except ServerError Unit := do
  if request.operations.length > config.pendingDecodeRecords then
    throw (.memoryBudget "pending decode records" request.operations.length config.pendingDecodeRecords)
  if payloadBytes request.operations > config.decodeBytes then
    throw (.memoryBudget "typed request payload" (payloadBytes request.operations) config.decodeBytes)

end Aequora.Server
