import Aequora.Server.Exchange

/-! Retries of recorded operations. Server and store agree on them except on a reused identity: the
server compares only the lineage, the store also the digest and the kind of the command. -/

namespace Aequora.Server

open Aequora.Base Aequora.Protocol Aequora.Store Aequora.Authority InMemoryAuthoritativeStore Program

/-- The payload digest and kind the store recorded for the operation are the ones presented. -/
def SyncServer.SameCommand (server : SyncServer) (auth : AuthContext) (operation : OperationEnvelope)
    (state : AuthoritativeState) : Prop :=
  state.operationDigests[auth.operationKey operation]? =
    some (server.blake3 operation.payload, operation.operationKind)

theorem Onward.sameCommand_iff {server : SyncServer} (move : Onward store later)
    (recorded : store.state.ledger[auth.operationKey operation]? = some previous) :
    server.SameCommand auth operation later.state ↔ server.SameCommand auth operation store.state := by
  unfold SyncServer.SameCommand
  rw [(AuthoritativeState.Extends.recorded move _ _ recorded).2.2]

namespace SyncServer
variable (server : SyncServer) (environment : Environment) (index : Nat) (auth : AuthContext)
variable (operation : OperationEnvelope) (completed : Finset OperationId) (scopeId : SyncScopeId)
variable (store : InMemoryAuthoritativeStore)

/-- The server acknowledges the retry. -/
def AcknowledgesRetry : Prop :=
  ∃ ack, ((server.processOperation environment index auth operation completed scopeId).run store).2 =
    .ok (.acknowledged ack)

/-- The server and the commit accept the same retries, and only those of the recorded command. -/
structure RetriesAgree : Prop where
  /-- However other exchanges interleave, an acknowledged retry presents what was recorded. -/
  faithful : (server.processOperation environment index auth operation completed scopeId).Ensures
    Onward Onward (fun result later => ∀ ack, result = .ok (.acknowledged ack) →
      SameLineage auth operation later.state ∧ server.SameCommand auth operation later.state) store
  /-- Every commit of the operation the server could send is answered the same way. -/
  agrees : ∀ context, (environment.writeAuthority index).authorizeWrite = .ok context →
    ∀ eventId now current mutation nextVersion,
      (server.commitFor auth operation scopeId context eventId now current mutation
        nextVersion).hasValidVersionTransition = true →
      (server.AcknowledgesRetry environment index auth operation completed scopeId store ↔
        ∃ ack, (store.commitOperation (server.commitFor auth operation scopeId context eventId now
          current mutation nextVersion)).2 = .ok (.duplicate ack))

variable {server environment index auth operation completed scopeId store}
section
variable (permitted : (environment.writeAuthority index).authorizeWrite = .ok context)
  (authenticated : auth.Matches operation)
include permitted authenticated

/-- With writes permitted, an authenticated operation is looked up in the ledger first. -/
theorem processOperation_permitted : server.processOperation environment index auth operation completed scopeId =
      (observe fun store => store.operationResult auth.tenantId operation.operationId) >>=
        fun previous => match previous with
        | some previous => retryOperation auth operation previous
        | none => server.processFresh environment index auth operation completed scopeId context := by
  unfold processOperation
  rw [permitted]
  exact if_neg (not_not_intro authenticated)

/-- A recorded operation is acknowledged by its lineage alone. -/
theorem acknowledgesRetry_iff (recorded : store.state.ledger[auth.operationKey operation]? = some previous) :
    server.AcknowledgesRetry environment index auth operation completed scopeId store ↔
      SameLineage auth operation store.state := by
  have found : store.operationResult auth.tenantId operation.operationId = some previous := recorded
  unfold AcknowledgesRetry
  rw [processOperation_permitted permitted authenticated, run_observe_bind, found]
  simp only [retryOperation, run_observe_bind]
  by_cases same : SameLineage auth operation store.state
  · have lineage : store.operationLineage auth.tenantId operation.operationId =
        some (resolvedLineage operation) := same
    simp [lineage, same]
  · have lineage : store.operationLineage auth.tenantId operation.operationId ≠
        some (resolvedLineage operation) := same
    simp [lineage, same]

end

/-- A recorded commit is a duplicate by its lineage, its digest and its kind. -/
theorem commitOperation_duplicate_iff (valid : commit.hasValidVersionTransition = true)
    (recorded : store.state.ledger[commit.operationKey]? = some previous) :
    (∃ ack, (store.commitOperation commit).2 = .ok (.duplicate ack)) ↔
      store.state.operationLineages[commit.operationKey]? = some commit.operationLineage ∧
        store.state.operationDigests[commit.operationKey]? =
          some (commit.commandDigest, commit.operationKind) := by
  simp only [commitOperation, valid, recorded, Bool.not_true,
    Bool.false_eq_true, if_false, retry]
  split
  · simp_all
  · split <;> simp_all

/-- The two duplicate checks agree on a recorded operation exactly when the server does not get to
compare the lineage alone: it may not write, the lineage differs, or the command is the same. -/
theorem retriesAgree_iff (authenticated : auth.Matches operation)
    (recorded : store.state.ledger[auth.operationKey operation]? = some previous) :
    server.RetriesAgree environment index auth operation completed scopeId store ↔
      (∃ error, (environment.writeAuthority index).authorizeWrite = .error error) ∨
        ¬SameLineage auth operation store.state ∨ server.SameCommand auth operation store.state := by
  cases permitted : (environment.writeAuthority index).authorizeWrite with
  | error error =>
    refine iff_of_true ⟨?_, fun context granted => ?_⟩ (.inl ⟨error, rfl⟩)
    · rw [processOperation, permitted]
      exact ensures_pure fun _ _ ack reported => nomatch reported
    · rw [permitted] at granted
      cases granted
  | ok context =>
    have acknowledged : server.AcknowledgesRetry environment index auth operation completed scopeId
        store ↔ SameLineage auth operation store.state :=
      acknowledgesRetry_iff permitted authenticated recorded
    constructor
    · intro agree
      right
      by_cases same : SameLineage auth operation store.state
      · -- The commit of a creation stands for all commits of the operation.
        have duplicate := (agree.agrees context permitted (environment.eventId index)
          (environment.now index) none ⟨[], .upsert⟩ EntityVersion.initial rfl).mp (acknowledged.mpr same)
        exact .inr ((commitOperation_duplicate_iff rfl recorded).mp duplicate).2
      · exact .inl same
    · rintro (⟨_, refused⟩ | compared)
      · cases refused
      · refine ⟨?_, fun granted writing eventId now current mutation nextVersion valid => ?_⟩
        · rw [processOperation_permitted permitted authenticated]
          apply ensures_observe_bind Onward.refl
          intro looked move
          have kept := (AuthoritativeState.Extends.recorded move _ _ recorded).1
          rw [show looked.operationResult auth.tenantId operation.operationId = some previous from kept]
          have ensures : (retryOperation auth operation previous).Ensures Onward
              (server.Commits auth [operation])
              (fun result later => Onward store later ∧ Answers auth operation looked result later) looked :=
            (retryOperation_ensures authenticated kept).moved move (fun _ _ => Commits.onward) Onward.trans
          refine ensures.mono (fun _ _ => Commits.onward) fun result later ended ack reported => ?_
          obtain ⟨_, remembers, -⟩ := ended.2.reports _ reported
          have same := (ended.1.sameLineage_iff recorded).mp remembers.lineage
          exact ⟨remembers.lineage, (ended.1.sameCommand_iff recorded).mpr
            (compared.resolve_left (not_not.mpr same))⟩
        · rw [acknowledged, commitOperation_duplicate_iff valid recorded]
          exact ⟨fun same => ⟨same, compared.resolve_left (not_not.mpr same)⟩, And.left⟩

end SyncServer

/-- A server that authorizes everything and merges nothing, with a digest of one byte repeated. -/
def exampleServer : SyncServer where
  executor := allowAllExecutor
  conflicts := rejectConflicts
  config :=
    { limits := .default
      maxPullChanges := 1024
      responseBytes := 4096
      decodeBytes := 4096
      pendingDecodeRecords := 1024
      maxRecordsPerChunk := 1024
      maxChunkBytes := 4096 }
  encodedLength response := .ok response.changes.length
  blake3 payload := Vector.replicate 32 (payload.headD 0)

/-- A primary that serves without interruption. -/
def exampleEnvironment (firstEvent : Nat) : Environment where
  authority := primary
  writeAuthority _ := .new primary .default
  commitAuthority _ := .new primary .default
  eventId index := ⟨BitVec.ofNat 128 (firstEvent + index)⟩
  now _ := ⟨0, 0, ⟨1⟩⟩
  serverTime := ⟨0, 0, ⟨1⟩⟩
where
  primary : AuthorityState :=
    { authorityId := ⟨1⟩
      epoch := 1
      role := .primary
      instanceId := ⟨1⟩
      fenceToken := 1
      runtimeMode := .serving
      lastPromotionClass := .losslessContinuation
      transitionId := ⟨1⟩
      updatedAtUnixMs := 0 }

def exampleAuth : AuthContext := { actorId := ⟨1⟩, tenantId := ⟨1⟩, deviceId := ⟨1⟩ }

/-- An operation of the example identity that creates the entity of the same number. -/
def exampleOperation (id : BitVec 128) (payload : List UInt8) (dependencies : List OperationId) :
    OperationEnvelope where
  protocolVersion := 1
  operationId := ⟨id⟩
  tenantId := ⟨1⟩
  actorId := ⟨1⟩
  deviceId := ⟨1⟩
  entity := { entityType := 1, entityId := ⟨id⟩ }
  baseVersion := none
  createdAt := ⟨0, 0, ⟨1⟩⟩
  schemaVersion := 1
  operationKind := 1
  payload
  metadata := { traceId := none, dependencies, lineage := ⟨⟨1⟩, none⟩ }

def exampleCommitted : InMemoryAuthoritativeStore :=
  ((exampleServer.processOperation (exampleEnvironment 1) 0 exampleAuth (exampleOperation 1 [1] []) ∅
    ⟨1⟩).run .default).1

namespace SyncServer

/-- A genuine retry of the committed operation is answered alike by both checks. -/
theorem retriesAgree_iff_genuine :
    exampleCommitted.state.ledger[exampleAuth.operationKey (exampleOperation 1 [1] [])]?.isSome ∧
      exampleServer.RetriesAgree (exampleEnvironment 2) 0 exampleAuth (exampleOperation 1 [1] []) ∅ ⟨1⟩
        exampleCommitted := by
  have recorded : exampleCommitted.state.ledger[
      exampleAuth.operationKey (exampleOperation 1 [1] [])]?.isSome := by decide +kernel
  obtain ⟨_, found⟩ := Option.isSome_iff_exists.mp recorded
  refine ⟨recorded, (retriesAgree_iff (by decide) found).mpr (.inr (.inr ?_))⟩
  show _ = _
  decide +kernel

/-- The same identity with another payload: the server acknowledges a command that was never
applied, the commit refuses it. -/
theorem reused_identity_acknowledged :
    exampleServer.AcknowledgesRetry (exampleEnvironment 2) 0 exampleAuth (exampleOperation 1 [2] []) ∅
        ⟨1⟩ exampleCommitted ∧
      ¬exampleServer.SameCommand exampleAuth (exampleOperation 1 [2] []) exampleCommitted.state ∧
      (exampleCommitted.commitOperation (exampleServer.commitFor exampleAuth (exampleOperation 1 [2] [])
          ⟨1⟩ ⟨⟨1⟩, 1, ⟨1⟩, 1⟩ ⟨2⟩ ⟨0, 0, ⟨1⟩⟩ none ⟨[2], .upsert⟩ 1)).2 =
        .error (.permanent
          "OperationId reuse changed the canonical payload digest or operation kind") := by
  refine ⟨⟨⟨⟨1⟩, ⟨1⟩, ⟨⟨1⟩, some (.operation ⟨1⟩)⟩, 1, 1, true⟩, ?_⟩, ?_, ?_⟩
  · decide +kernel
  · show ¬_ = _
    decide +kernel
  · decide +kernel

end SyncServer

end Aequora.Server
