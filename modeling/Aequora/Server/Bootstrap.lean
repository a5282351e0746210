import Aequora.Server.Process

/-! Processing one bootstrap request: capture a snapshot unless one is resumed, and answer with a
page of it under the authority state the request began with. -/

namespace Aequora.Server

open Aequora.Base Aequora.Protocol Aequora.Store Aequora.Authority

structure BootstrapEnvironment where
  authority : AuthorityState
  startupAuthority : AuthorityController
  snapshotId : SnapshotId
  serverTime : HybridTimestamp

namespace SyncServer
variable (server : SyncServer)

section
variable (environment : BootstrapEnvironment)

section
variable (auth : AuthContext) (request : BootstrapRequest)

/-- The checks of a bootstrap request before the store is touched. -/
def checkBootstrap : Except ServerError Unit :=
  match environment.startupAuthority.validateStartup with
  | .error error => .error (.authority error)
  | .ok () =>
    match validateBootstrapRequest request server.config.limits with
    | .error error => .error (.validation error)
    | .ok () =>
      if request.session.tenantId ≠ auth.tenantId ∨ request.session.actorId ≠ auth.actorId ∨
          request.session.deviceId ≠ auth.deviceId then .error .identityMismatch
      else
        match server.executor.authorizeScope auth request.session with
        | .error error => .error (.scopeAuthorization error)
        | .ok () => .ok ()

/-- The snapshot a request reads: the one it resumes, or a new capture. -/
def selectSnapshot : Program InMemoryAuthoritativeStore SnapshotId :=
  match request.snapshotId with
  | some snapshotId => pure snapshotId
  | none => do
    let descriptor ← Program.atomically fun store => store.createSnapshotInTimeline auth.tenantId
      request.session.scopeId
      { authorityId := environment.authority.authorityId, epoch := environment.authority.epoch }
      environment.snapshotId
    pure descriptor.snapshotId

end

section
variable (request : BootstrapRequest)

/-- Whether the page may be answered under the authority state: a bound cursor must be its own. -/
def checkPage (page : SnapshotPage) :
    Except ServerError Unit :=
  if page.descriptor.cursor.authorityId ≠ .legacyUnbound ∧
      page.descriptor.cursor.authorityId ≠ environment.authority.authorityId then
    .error (.authority (.authorityIdChanged environment.authority.authorityId
      page.descriptor.cursor.authorityId))
  else if page.descriptor.cursor.authorityId ≠ .legacyUnbound ∧
      page.descriptor.cursor.authorityEpoch ≠ environment.authority.epoch then
    .error (.authority (.artifactEpochMismatch page.descriptor.cursor.authorityEpoch
      environment.authority.epoch))
  else if page.descriptor.cursor.scope ≠ request.session.scopeId then .error .identityMismatch
  else if page.hasMore ∧ page.entities = [] ∧ page.nextOffset = request.offset then
    .error .snapshotNoProgress
  else .ok ()

def respondPage (page : SnapshotPage) :
    BootstrapResponse where
  protocol := request.protocol
  snapshotId := page.descriptor.snapshotId
  cursor := environment.authority.cursor request.session.scopeId page.descriptor.cursor.sequence
  offset := request.offset
  entities := page.entities
  nextOffset := page.nextOffset
  hasMore := page.hasMore
  serverTime := environment.serverTime

/-- The answer to what the store gave for the requested page. -/
def answerPage :
    Except StoreError SnapshotPage → Except ServerError BootstrapResponse
  | .error error => .error (.store error)
  | .ok page =>
    match checkPage environment request page with
    | .error error => .error error
    | .ok () => .ok (respondPage environment request page)

end

def processBootstrap (auth : AuthContext) (request : BootstrapRequest) :
    Program InMemoryAuthoritativeStore (Except ServerError BootstrapResponse) :=
  match server.checkBootstrap environment auth request with
  | .error error => pure (.error error)
  | .ok () => do
    let snapshotId ← selectSnapshot environment auth request
    let page ← Program.observe fun store => store.readSnapshot auth.tenantId snapshotId request.offset
      (min request.limits.maxEntities server.config.maxRecordsPerChunk)
      (min request.limits.maxPayloadBytes server.config.maxChunkBytes)
    pure (answerPage environment request page)

end

end SyncServer

end Aequora.Server
