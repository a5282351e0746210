import Aequora.Base.Interleaving
import Aequora.Server.DependencyPlan
import Aequora.Store.Commit

/-! Processing one exchange. Every store call is one atomic access, and everything between two
accesses is a pure function of what was read. -/

namespace Aequora.Server

open Aequora.Base Aequora.Protocol Aequora.Store Aequora.Authority Program

structure SyncServer where
  executor : OperationExecutor
  conflicts : ConflictResolver
  config : ServerConfig
  encodedLength : SyncResponse → Except String Nat
  blake3 : List UInt8 → Vector UInt8 32

/-- What one call draws from its surroundings: the authority state it starts under, for the
operation at each index the authority it asks for permission and the one that verifies its commit,
a fresh event identity and a clock reading, and the time of its response. -/
structure Environment where
  authority : AuthorityState
  (writeAuthority commitAuthority : Nat → AuthorityController)
  eventId : Nat → EventId
  now : Nat → HybridTimestamp
  serverTime : HybridTimestamp

inductive ProcessResult where
  | acknowledged (ack : OperationAck)
  | rejected (rejection : OperationRejection)
  | conflict (conflict : Conflict)
deriving DecidableEq

/-- The operation carries the identity the request was authenticated with. -/
def AuthContext.Matches (auth : AuthContext) (operation : OperationEnvelope) : Prop :=
  operation.tenantId = auth.tenantId ∧ operation.actorId = auth.actorId ∧
    operation.deviceId = auth.deviceId

instance (auth : AuthContext) (operation : OperationEnvelope) : Decidable (auth.Matches operation) :=
  inferInstanceAs (Decidable (_ ∧ _))

def rejection (operation : OperationEnvelope) (code : RejectionCode) (message : String) : OperationRejection :=
  { operationId := operation.operationId, code, message }

def ExecutionError.rejection (error : ExecutionError) (operation : OperationEnvelope) : OperationRejection :=
  { operationId := operation.operationId, code := error.code, message := error.message }

def identityMismatch : ExecutionError where
  code := .identityMismatch
  message := "operation identity does not match the authenticated context"

def conflictFor (operation : OperationEnvelope) (current : Option EntityVersion)
    (policy : ConflictPolicy) (message : String) : Conflict :=
  { operationId := operation.operationId
    entity := operation.entity
    clientBase := operation.baseVersion
    serverVersion := current
    policy
    message }

def resolvedLineage (operation : OperationEnvelope) : LineageContext :=
  operation.metadata.lineage.resolvedForOperation operation.operationId

inductive Decision where
  | commit (mutation : AuthoritativeMutation) (nextVersion : EntityVersion)
  | report (result : ProcessResult)

namespace SyncServer
variable (server : SyncServer)

/-- The merge policy to apply to a diverged operation, or the conflict to report. -/
def mergePolicy (operation : OperationEnvelope) (currentVersion : Option EntityVersion) :
    Except Conflict (Option ConflictPolicy) :=
  let policy := server.conflicts.policy operation.operationKind
  match checkVersion operation.baseVersion currentVersion with
  | .current => .ok none
  | .missing => .error (conflictFor operation currentVersion policy "the entity no longer exists")
  | .diverged _ _ =>
    match policy with
    | .clientWins | .commutativeOperation => .ok none
    | .fieldMerge | .lastWriterWins | .customMerge | .crdt => .ok (some policy)
    | _ =>
      .error (conflictFor operation currentVersion policy
        "the operation is based on a stale entity version")

/-- Merge a candidate mutation into the current entity where the policy asks for it. -/
def merge (operation : OperationEnvelope) (current : Option CurrentEntity) (mutation : AuthoritativeMutation) :
    Option ConflictPolicy → Except ServerError (AuthoritativeMutation ⊕ Conflict)
  | none => .ok (.inl mutation)
  | some policy =>
    match current with
    | none => .ok (.inr (conflictFor operation none policy
        "the authoritative entity is unavailable for merge"))
    | some entity =>
      match server.conflicts.merge
        { operation
          currentPayload := entity.payload
          currentTombstone := entity.tombstone
          candidatePayload := mutation.payload
          candidateKind := mutation.changeKind } with
      | .error message => .error (.merge message)
      | .ok (.merged payload changeKind) => .ok (.inl { payload, changeKind })
      | .ok (.unresolved message) =>
        .ok (.inr (conflictFor operation (some entity.version) policy message))

section
variable (auth : AuthContext) (operation : OperationEnvelope)

/-- Version check, execution and merge against the entity that was read. -/
def evaluate (current : Option CurrentEntity) :
    Except ServerError Decision :=
  match server.mergePolicy operation (current.map CurrentEntity.version) with
  | .error conflict => .ok (.report (.conflict conflict))
  | .ok policy =>
    match server.executor.execute auth operation current with
    | .error error => .ok (.report (.rejected (error.rejection operation)))
    | .ok candidate =>
      match server.merge operation current candidate policy with
      | .error error => .error error
      | .ok (.inr conflict) => .ok (.report (.conflict conflict))
      | .ok (.inl mutation) =>
        match current with
        | none => .ok (.commit mutation EntityVersion.initial)
        | some entity =>
          match checkedAdd entity.version 1 with
          | none => .error .versionOverflow
          | some next => .ok (.commit mutation next)

/-- The commit of a decided operation. -/
def commitFor (scopeId : SyncScopeId)
    (context : AuthorityCommitContext) (eventId : EventId) (now : HybridTimestamp)
    (current : Option CurrentEntity) (mutation : AuthoritativeMutation) (nextVersion : EntityVersion) :
    CommitOperation where
  authority := some context
  operationId := operation.operationId
  eventId
  operationLineage := resolvedLineage operation
  actorId := auth.actorId
  deviceId := auth.deviceId
  operationKind := operation.operationKind
  tenantId := auth.tenantId
  scopeId
  entity := operation.entity
  expectedVersion := current.map CurrentEntity.version
  nextVersion
  payload := mutation.payload
  changeKind := mutation.changeKind
  timestamp := now
  commandDigest := server.blake3 operation.payload

end

/-- The report of a commit. -/
def reportCommit (operation : OperationEnvelope) :
    Except StoreError CommitOutcome → Except ServerError ProcessResult
  | .error error => .error (.store error)
  | .ok (.applied ack) => .ok (.acknowledged ack)
  | .ok (.duplicate ack) => .ok (.acknowledged { ack with duplicate := true })
  | .ok (.versionChanged current) =>
    .ok (.conflict (conflictFor operation current (server.conflicts.policy operation.operationKind)
      "the entity changed while this operation was being committed"))
  | .ok (.rejected rejection) => .ok (.rejected rejection)

end SyncServer

/-- Whether every dependency was completed in this batch or is in the ledger. -/
def dependenciesCompleted (tenant : TenantId) (completed : Finset OperationId) :
    List OperationId → Program InMemoryAuthoritativeStore Bool
  | [] => pure true
  | dependency :: rest =>
    if dependency ∈ completed then dependenciesCompleted tenant completed rest
    else do
      let result ← observe fun store => store.operationResult tenant dependency
      if result.isNone then pure false else dependenciesCompleted tenant completed rest

namespace SyncServer
variable (server : SyncServer)

/-- The answer to an operation the ledger already records. -/
def retryOperation (auth : AuthContext) (operation : OperationEnvelope) (previous : OperationAck) :
    Program InMemoryAuthoritativeStore (Except ServerError ProcessResult) := do
  let original ← observe fun store =>
    store.operationLineage auth.tenantId operation.operationId
  if original ≠ some (resolvedLineage operation) then
    pure (.ok (.rejected (rejection operation .invalidOperation
      "retry lineage differs from the original operation")))
  else pure (.ok (.acknowledged { previous with duplicate := true }))

section
variable (environment : Environment) (index : Nat) (auth : AuthContext) (operation : OperationEnvelope)

/-- Read the entity of an authorized operation, decide, and commit. -/
def executeOperation (scopeId : SyncScopeId) (context : AuthorityCommitContext) :
    Program InMemoryAuthoritativeStore (Except ServerError ProcessResult) := do
  let snapshot ← observe fun store => store.readEntity auth.tenantId operation.entity
  let current := snapshot.map EntitySnapshot.current
  match server.evaluate auth operation current with
  | .error error => pure (.error error)
  | .ok (.report result) => pure (.ok result)
  | .ok (.commit mutation nextVersion) =>
    match (environment.commitAuthority index).verifyCommitContext context with
    | .error error => pure (.error (.authority error))
    | .ok () => do
      let outcome ← atomically fun store => store.commitOperation
        (server.commitFor auth operation scopeId context (environment.eventId index)
          (environment.now index) current mutation nextVersion)
      pure (server.reportCommit operation outcome)

section
variable (completed : Finset OperationId) (scopeId : SyncScopeId)

/-- The path of an operation the ledger does not record: dependencies, authorization, execution. -/
def processFresh
    (context : AuthorityCommitContext) :
    Program InMemoryAuthoritativeStore (Except ServerError ProcessResult) := do
  let ready ← dependenciesCompleted auth.tenantId completed operation.metadata.dependencies
  if !ready then
    pure (.ok (.rejected (rejection operation .dependency "a required operation has not completed")))
  else
    match server.executor.authorize auth operation with
    | .error error => pure (.ok (.rejected (error.rejection operation)))
    | .ok () => server.executeOperation environment index auth operation scopeId context

def processOperation :
    Program InMemoryAuthoritativeStore (Except ServerError ProcessResult) :=
  match (environment.writeAuthority index).authorizeWrite with
  | .error error => pure (.error (.authority error))
  | .ok context =>
    if ¬auth.Matches operation then
      pure (.ok (.rejected (identityMismatch.rejection operation)))
    else do
      let previous ← observe fun store =>
        store.operationResult auth.tenantId operation.operationId
      match previous with
      | some previous => retryOperation auth operation previous
      | none => server.processFresh environment index auth operation completed scopeId context

end

end

end SyncServer

structure Outcomes where
  acknowledged : List OperationAck
  rejected : List OperationRejection
  conflicts : List Conflict
  completed : Finset OperationId

def Outcomes.empty : Outcomes where
  acknowledged := []
  rejected := []
  conflicts := []
  completed := ∅

def Outcomes.add (outcomes : Outcomes) : ProcessResult → Outcomes
  | .acknowledged ack =>
    { outcomes with
      acknowledged := outcomes.acknowledged ++ [ack]
      completed := insert ack.operationId outcomes.completed }
  | .rejected rejection => { outcomes with rejected := outcomes.rejected ++ [rejection] }
  | .conflict conflict => { outcomes with conflicts := outcomes.conflicts ++ [conflict] }

namespace SyncServer
variable (server : SyncServer)

/-- Process the operations of a batch in plan order, each with its index in the batch. -/
def processOperations (environment : Environment) (auth : AuthContext) (scopeId : SyncScopeId) :
    Outcomes → List (Nat × OperationEnvelope) →
      Program InMemoryAuthoritativeStore (Except ServerError Outcomes)
  | outcomes, [] => pure (.ok outcomes)
  | outcomes, (index, operation) :: rest => do
    let result ← server.processOperation environment index auth operation outcomes.completed scopeId
    match result with
    | .error error => pure (.error error)
    | .ok result => processOperations environment auth scopeId (outcomes.add result) rest

/-- Drop changes from the end until the encoded response fits. The changes are held in reverse. -/
def fitChanges (response : SyncResponse) (start : Sequence) (maximum : Nat) :
    Bool → Sequence → List RemoteChange → Except ServerError SyncResponse
  | hasMore, sequence, [] =>
    let fitted := { response with
      changes := [], hasMore, nextCursor := { response.nextCursor with sequence } }
    match server.encodedLength fitted with
    | .error message => .error (.codec message)
    | .ok length => if length ≤ maximum then .ok fitted else .error .responseLimit
  | hasMore, sequence, last :: earlier =>
    let fitted := { response with
      changes := (last :: earlier).reverse, hasMore
      nextCursor := { response.nextCursor with sequence } }
    match server.encodedLength fitted with
    | .error message => .error (.codec message)
    | .ok length =>
      if length ≤ maximum then .ok fitted
      else if earlier = [] ∧ response.acknowledged = [] ∧ response.rejected = [] ∧
          response.conflicts = [] then .error .responseLimit
      else fitChanges response start maximum true (earlier.head?.elim start RemoteChange.sequence) earlier

def fitResponse (response : SyncResponse) (start : Sequence) (maximumBytes : Nat) : Except ServerError SyncResponse :=
  server.fitChanges response start (min maximumBytes server.config.responseBytes)
    response.hasMore response.nextCursor.sequence response.changes.reverse

/-- A response that reports nothing but its directive. -/
def directiveOnly (environment : Environment) (protocol : UInt16) (directive : SyncDirective)
    (cursor : Cursor) : SyncResponse where
  protocol
  directive
  acknowledged := []
  rejected := []
  conflicts := []
  changes := []
  nextCursor := cursor
  hasMore := false
  serverTime := environment.serverTime

/-- The checks of a request before the store is touched, with the response that ends it early. -/
def checkRequest (environment : Environment) (auth : AuthContext) (request : SyncRequest) :
    Except ServerError (Option SyncResponse) :=
  match validateRequest request server.config.limits with
  | .error error => .error (.validation error)
  | .ok () =>
    match server.config.validateTypedRequestBudget request with
    | .error error => .error error
    | .ok () =>
      if request.session.tenantId ≠ auth.tenantId ∨ request.session.actorId ≠ auth.actorId ∨
          request.session.deviceId ≠ auth.deviceId then .error .identityMismatch
      else
        match server.executor.authorizeScope auth request.session with
        | .error error => .error (.scopeAuthorization error)
        | .ok () =>
          match request.cursor with
          | none => .ok none
          | some cursor =>
            match validateCursor environment.authority cursor with
            | .error error => .error (.authority error)
            | .ok .continue => .ok none
            | .ok (.authorityChanged previous current) =>
              .ok (some (directiveOnly environment request.protocol
                (.authorityChanged environment.authority.authorityId previous current)
                (environment.authority.cursor request.session.scopeId 0)))

/-- The operations of a batch in plan order, each with its index. -/
def planned (operations : List OperationEnvelope) : Except ServerError (List (Nat × OperationEnvelope)) :=
  match planDependencies operations with
  | .error error => .error (.dependency error)
  | .ok plan => .ok (plan.orderedIndices.filterMap fun index => operations[index]?.map (index, ·))

/-- The response to a processed batch, before it is fitted. -/
def respond (environment : Environment) (request : SyncRequest) (outcomes : Outcomes)
    (page : ChangePage) : SyncResponse where
  protocol := request.protocol
  directive := .continue
  acknowledged := outcomes.acknowledged
  rejected := outcomes.rejected
  conflicts := outcomes.conflicts
  changes := page.changes
  nextCursor := environment.authority.cursor request.session.scopeId page.nextSequence
  hasMore := page.hasMore
  serverTime := environment.serverTime

section
variable (environment : Environment) (auth : AuthContext) (request : SyncRequest)

/-- Process an admitted request from the cursor it continues at. -/
def processAdmitted : Program InMemoryAuthoritativeStore (Except ServerError SyncResponse) := do
  let start := request.cursor.elim 0 Cursor.sequence
  let minimumCursor ← observe fun store =>
    store.minimumRetainedCursor auth.tenantId request.session.scopeId
  if start < minimumCursor then
    pure (.ok (directiveOnly environment request.protocol (.resyncRequired .cursorExpired)
      (environment.authority.cursor request.session.scopeId minimumCursor)))
  else
    match planned request.operations with
    | .error error => pure (.error error)
    | .ok operations => do
      let processed ← server.processOperations environment auth request.session.scopeId .empty operations
      match processed with
      | .error error => pure (.error error)
      | .ok outcomes => do
        let page ← observe fun store => store.readChangesAfter auth.tenantId
          request.session.scopeId start (min request.limits.maxChanges server.config.maxPullChanges)
          request.limits.maxResponseBytes
        pure (server.fitResponse (respond environment request outcomes page) start
          request.limits.maxResponseBytes)

def process : Program InMemoryAuthoritativeStore (Except ServerError SyncResponse) :=
  if request.protocol < server.config.limits.minimumProtocol ∨
      request.protocol > server.config.limits.currentProtocol then
    pure (.ok (directiveOnly environment server.config.limits.currentProtocol
      (.upgradeRequired server.config.limits.minimumProtocol server.config.limits.currentProtocol)
      (request.cursor.getD (environment.authority.cursor request.session.scopeId 0))))
  else
    match server.checkRequest environment auth request with
    | .error error => pure (.error error)
    | .ok (some response) => pure (.ok response)
    | .ok none => server.processAdmitted environment auth request

end

end SyncServer

end Aequora.Server
