import Aequora.Client.Bootstrap
import Aequora.Server.EpochLabels

/-! Taking over a snapshot page by page, from the server's store to the client's, while calls break
off and begin again and others use the server's store. -/

namespace Aequora.Client

open Std Aequora.Base Aequora.Protocol Aequora.Store Aequora.Server Aequora.Authority SyncServer Option Run Program

structure BootstrapSetting where
  server : SyncServer
  config : ClientConfig
  auth : AuthContext
  authority : AuthorityState
  startup : AuthorityController

structure BootstrapAttempt where
  requestId : RequestId
  snapshotId : SnapshotId
  serverTime : HybridTimestamp
  blocks : List (List StoreAction)
  around : ReferenceSurroundings

inductive BootstrapEvent where
  | others (action : StoreAction)
  | interrupted
  | lost (attempt : BootstrapAttempt)
  | answered (attempt : BootstrapAttempt)

def BootstrapEvent.delivers : BootstrapEvent → Bool
  | .answered attempt => attempt.around.fence.isOk
  | _ => false

structure BootstrapRun where
  store : InMemoryAuthoritativeStore
  replica : LocalState
  trusted : Option Cursor
  progress : BootstrapProgress
  installed : Option BootstrapOutcome

namespace BootstrapSetting
variable (setting : BootstrapSetting)

abbrev tenant : TenantId := setting.auth.tenantId

abbrev scope : SyncScopeId := setting.config.session.scopeId

abbrev maxEntities : Nat := min setting.config.snapshotLimits.maxEntities setting.server.config.maxRecordsPerChunk

abbrev maxPayloadBytes : Nat :=
  min setting.config.snapshotLimits.maxPayloadBytes setting.server.config.maxChunkBytes

def request (progress : BootstrapProgress) (requestId : RequestId) : BootstrapRequest where
  protocol := setting.config.protocol
  requestId
  session := setting.config.session
  snapshotId := progress.snapshotId
  offset := progress.offset
  limits := setting.config.snapshotLimits

def environment (attempt : BootstrapAttempt) : BootstrapEnvironment where
  authority := setting.authority
  startupAuthority := setting.startup
  snapshotId := attempt.snapshotId
  serverTime := attempt.serverTime

/-- The server at work on the client's next request. -/
def serve (attempt : BootstrapAttempt) (run : BootstrapRun) :
    Passage InMemoryAuthoritativeStore (Except ServerError BootstrapResponse) :=
  (setting.server.processBootstrap (setting.environment attempt) setting.auth
    (setting.request run.progress attempt.requestId)).runAmong InMemoryAuthoritativeStore.step run.store attempt.blocks

/-- A call begins where the local store stands. -/
def beginCall (store : InMemoryAuthoritativeStore) (replica : LocalState) : BootstrapRun where
  store
  replica
  trusted := referenceClient.loadCursor setting.scope replica
  progress := .resume (referenceClient.snapshotProgress setting.scope replica)
  installed := none

/-- The client checks a page and stages it. An error ends the call, and another one begins. -/
def receive (around : ReferenceSurroundings) (page : BootstrapResponse) (run : BootstrapRun) : BootstrapRun :=
  match validateTrust page run.trusted with
  | .error _ => setting.beginCall run.store run.replica
  | .ok () =>
    match acceptPage setting.config referenceClient run.progress { page, around } run.replica with
    | (next, .error _) => setting.beginCall run.store next
    | (next, .ok extended) =>
      { run with
        replica := next
        progress := extended
        installed := if page.hasMore then none else some (.of extended page) }

/-- Once the snapshot is installed the client asks for nothing more. -/
def step (run : BootstrapRun) : BootstrapEvent → BootstrapRun
  | .others action => { run with store := run.store.step action }
  | .interrupted => if run.installed = none then setting.beginCall run.store run.replica else run
  | .lost attempt => if run.installed = none then { run with store := (setting.serve attempt run).left } else run
  | .answered attempt =>
    if run.installed = none then
      match (setting.serve attempt run).result with
      | .error _ => setting.beginCall (setting.serve attempt run).left run.replica
      | .ok page => setting.receive attempt.around page { run with store := (setting.serve attempt run).left }
    else run

def stagedId (run : BootstrapRun) : Option SnapshotId :=
  (referenceClient.snapshotProgress setting.scope run.replica).map SnapshotProgress.snapshotId

/-- What others do during a request captures nothing under the identity that the request is given, nor under
that of the snapshot being staged. -/
abbrev Unmixed (attempt : BootstrapAttempt) (run : BootstrapRun) : Prop :=
  ∀ action ∈ attempt.blocks.flatten, ¬action.Captures (setting.tenant, attempt.snapshotId) ∧
    ∀ snapshotId ∈ setting.stagedId run, ¬action.Captures (setting.tenant, snapshotId)

/-- Identities of snapshots are not given twice. -/
def Undisturbed (run : BootstrapRun) : BootstrapEvent → Prop
  | .others action => ∀ snapshotId ∈ setting.stagedId run, ¬action.Captures (setting.tenant, snapshotId)
  | .interrupted => True
  | .lost attempt | .answered attempt => setting.Unmixed attempt run

def boundary (met : InMemoryAuthoritativeStore) : Cursor :=
  setting.authority.cursor setting.scope (met.state.sequences[(setting.tenant, setting.scope)]?.getD 0)

/-- The entities of the scope can be counted at every moment between two stores. -/
def Countable (first last : InMemoryAuthoritativeStore) : Prop :=
  ∀ met, Follows first met → Follows met last →
    (met.state.scopeEntities setting.tenant setting.scope).length ≤ u64Max

/-- Every entity of the scope fits into a page at every moment between two stores. -/
def Fitting (first last : InMemoryAuthoritativeStore) : Prop :=
  ∀ met, Follows first met → Follows met last → ∀ entity ∈ met.state.scopeEntities setting.tenant setting.scope,
    entity.payload.length ≤ setting.maxPayloadBytes

/-- A staged part of a snapshot: the snapshot was captured since the origin, the server still holds it,
and what is staged are its entities up to the offset. -/
structure Staging (origin store : InMemoryAuthoritativeStore) (staged : StagedSnapshot)
    (met : InMemoryAuthoritativeStore) : Prop where
  since : Follows origin met
  kept : Follows met store
  stored : store.state.snapshots[(setting.tenant, staged.progress.snapshotId)]? =
    some (met.state.capture setting.tenant setting.scope staged.progress.snapshotId)
  cursor : staged.progress.cursor = setting.boundary met
  entities : staged.entities = (met.state.capture setting.tenant setting.scope
    staged.progress.snapshotId).entities.take staged.progress.nextOffset
  inside : staged.progress.nextOffset ≤ (met.state.scopeEntities setting.tenant setting.scope).length

section
variable (origin : InMemoryAuthoritativeStore) (replica : LocalState) (run : BootstrapRun)

/-- Until the snapshot is installed: entities and cursors are those of the beginning, the running call
continues what is staged, and what is staged has more to come. -/
structure Pending : Prop where
  entities : run.replica.entities = replica.entities
  cursors : run.replica.cursors = replica.cursors
  trusted : run.trusted = replica.cursors[setting.scope]?
  snapshotId : run.progress.snapshotId = setting.stagedId run
  offset : run.progress.offset = (run.replica.stagedSnapshots[setting.scope]?).elim 0 fun staged =>
    staged.progress.nextOffset
  cursor : run.progress.cursor = (run.replica.stagedSnapshots[setting.scope]?).map fun staged =>
    staged.progress.cursor
  staging : ∀ staged, run.replica.stagedSnapshots[setting.scope]? = some staged →
    ∃ met, setting.Staging origin run.store staged met ∧
      staged.progress.nextOffset < (met.state.scopeEntities setting.tenant setting.scope).length

/-- The scope holds exactly what was captured of it, each entity once, and the cursor of the capture; other
scopes are as they were. -/
structure Installed (outcome : BootstrapOutcome) (met : InMemoryAuthoritativeStore) : Prop where
  since : Follows origin met
  kept : Follows met run.store
  distinct : ((met.state.capture setting.tenant setting.scope outcome.snapshotId).entities.map
    SnapshotEntity.entity).Nodup
  content : ∀ entity, run.replica.entities[(setting.scope, entity)]? =
    (met.state.capture setting.tenant setting.scope outcome.snapshotId).entities.find? fun captured =>
      captured.entity = entity
  cursor : run.replica.cursors[setting.scope]? = some (setting.boundary met)
  reported : outcome.cursor = setting.boundary met
  others : ∀ other, other ≠ setting.scope → run.replica.cursors[other]? = replica.cursors[other]? ∧
    ∀ entity : EntityRef, run.replica.entities[(other, entity)]? = replica.entities[(other, entity)]?

structure Sound : Prop where
  follows : Follows origin run.store
  pending : run.installed = none → setting.Pending origin replica run
  installed : ∀ outcome, run.installed = some outcome → ∃ met, setting.Installed origin replica run outcome met

end

variable {setting} {met : InMemoryAuthoritativeStore} {replica : LocalState} {run : BootstrapRun}
  {staged : StagedSnapshot} {attempt : BootstrapAttempt}

theorem Staging.moved (staging : setting.Staging origin store staged met) (follows : Follows store next)
    (same : next.state.snapshots[(setting.tenant, staged.progress.snapshotId)]? =
      store.state.snapshots[(setting.tenant, staged.progress.snapshotId)]?) :
    setting.Staging origin next staged met :=
  { staging with kept := staging.kept.trans follows, stored := same.trans staging.stored }

theorem Pending.moved (pending : setting.Pending origin replica run) (follows : Follows run.store next)
    (same : ∀ snapshotId ∈ setting.stagedId run, next.state.snapshots[(setting.tenant, snapshotId)]? =
      run.store.state.snapshots[(setting.tenant, snapshotId)]?) :
    setting.Pending origin replica { run with store := next } := by
  refine { pending with staging := ?_ }
  intro staged found
  obtain ⟨met, staging, unfinished⟩ := pending.staging staged found
  have mine : staged.progress.snapshotId ∈ setting.stagedId run := by
    simp [stagedId, referenceClient, found]
  exact ⟨met, staging.moved follows (same _ mine), unfinished⟩

theorem Pending.beginCall (pending : setting.Pending origin replica run) :
    setting.Pending origin replica (setting.beginCall run.store run.replica) where
  entities := pending.entities
  cursors := pending.cursors
  trusted := congrArg (·[setting.scope]?) pending.cursors
  snapshotId := rfl
  offset := by
    simp only [BootstrapSetting.beginCall, BootstrapProgress.resume, referenceClient]
    cases run.replica.stagedSnapshots[setting.scope]? <;> rfl
  cursor := by
    simp only [BootstrapSetting.beginCall, BootstrapProgress.resume, referenceClient]
    cases run.replica.stagedSnapshots[setting.scope]? <;> rfl
  staging := pending.staging

theorem serve_refused (refused : setting.server.checkBootstrap (setting.environment attempt)
      setting.auth (setting.request run.progress attempt.requestId) = .error error) :
    setting.serve attempt run = { met := [], left := run.store, result := .error error } := by
  rw [serve, processBootstrap, refused]
  rfl

section
variable
  (checked : setting.server.checkBootstrap (setting.environment attempt) setting.auth (setting.request run.progress attempt.requestId) = .ok ())
include checked

theorem serve_resumed (resumed : run.progress.snapshotId = some snapshotId) :
    let reading := final InMemoryAuthoritativeStore.step run.store (attempt.blocks.headD [])
    (setting.serve attempt run).left = reading ∧
      (setting.serve attempt run).result = answerPage (setting.environment attempt)
        (setting.request run.progress attempt.requestId) (reading.readSnapshot setting.tenant snapshotId
          run.progress.offset setting.maxEntities setting.maxPayloadBytes) := by
  rw [serve, processBootstrap_resumed checked resumed]
  exact ⟨rfl, rfl⟩

theorem serve_begun (begun : run.progress.snapshotId = none) :
    let meeting := final InMemoryAuthoritativeStore.step run.store (attempt.blocks.headD [])
    let reading := final InMemoryAuthoritativeStore.step
      (meeting.step (.createSnapshot setting.tenant setting.scope attempt.snapshotId)) (attempt.blocks.tail.headD [])
    (setting.serve attempt run).left = reading ∧
      (setting.serve attempt run).result = answerPage (setting.environment attempt)
        (setting.request run.progress attempt.requestId) (reading.readSnapshot setting.tenant attempt.snapshotId
          run.progress.offset setting.maxEntities setting.maxPayloadBytes) := by
  rw [serve, processBootstrap_begun checked begun]
  exact ⟨rfl, rfl⟩

end

theorem serve_follows (attempt : BootstrapAttempt) (run : BootstrapRun) :
    Follows run.store (setting.serve attempt run).left := by
  cases checked : setting.server.checkBootstrap (setting.environment attempt) setting.auth
      (setting.request run.progress attempt.requestId) with
  | error _ =>
    rw [serve_refused checked]
    exact .refl _
  | ok _ =>
    cases progress : run.progress.snapshotId with
    | some snapshotId =>
      rw [(serve_resumed checked progress).1]
      exact ⟨_, rfl⟩
    | none =>
      rw [(serve_begun checked progress).1]
      refine ⟨attempt.blocks.headD [] ++ .createSnapshot setting.tenant setting.scope attempt.snapshotId ::
        attempt.blocks.tail.headD [], ?_⟩
      rw [final_append, final_cons]

theorem serve_keeps (pending : setting.Pending origin replica run) (unmixed : setting.Unmixed attempt run) :
    ∀ snapshotId ∈ setting.stagedId run,
      (setting.serve attempt run).left.state.snapshots[(setting.tenant, snapshotId)]? =
        run.store.state.snapshots[(setting.tenant, snapshotId)]? := by
  intro snapshotId mine
  cases checked : setting.server.checkBootstrap (setting.environment attempt) setting.auth
      (setting.request run.progress attempt.requestId) with
  | error _ => rw [serve_refused checked]
  | ok _ =>
    rw [(serve_resumed checked (pending.snapshotId.trans mine)).1]
    have before := (forall_blocks unmixed).1
    exact InMemoryAuthoritativeStore.final_snapshot_kept fun action listed => (before action listed).2 _ mine

/-- What is staged for the scope, or nothing yet of the given snapshot. -/
def heldUnder (setting : BootstrapSetting) (replica : LocalState) (snapshotId : SnapshotId) (cursor : Cursor) :
    StagedSnapshot :=
  replica.stagedSnapshots[setting.scope]?.getD
    { progress := { snapshotId, cursor, nextOffset := 0 }, entities := [] }

/-- A request that passes the checks is answered from a snapshot that continues what is staged, or from a
new capture when nothing is. -/
theorem serve_answers (follows : Follows origin run.store) (pending : setting.Pending origin replica run)
    (unmixed : setting.Unmixed attempt run)
    (checked : setting.server.checkBootstrap (setting.environment attempt) setting.auth
      (setting.request run.progress attempt.requestId) = .ok ()) :
    ∃ met snapshotId, setting.Staging origin (setting.serve attempt run).left
        (setting.heldUnder run.replica snapshotId (setting.boundary met)) met ∧
      (setting.heldUnder run.replica snapshotId (setting.boundary met)).progress =
        { snapshotId, cursor := setting.boundary met, nextOffset := run.progress.offset } ∧
      (setting.serve attempt run).result = answerPage (setting.environment attempt)
        (setting.request run.progress attempt.requestId)
        (.ok ((met.state.capture setting.tenant setting.scope snapshotId).pageFrom run.progress.offset
          setting.maxEntities setting.maxPayloadBytes)) := by
  have moves : Follows run.store (setting.serve attempt run).left := serve_follows attempt run
  have keeps := serve_keeps pending unmixed
  cases found : run.replica.stagedSnapshots[setting.scope]? with
  | some staged =>
    obtain ⟨met, staging, _⟩ := pending.staging staged found
    have mine : setting.stagedId run = some staged.progress.snapshotId := by
      simp [stagedId, referenceClient, found]
    have offset : run.progress.offset = staged.progress.nextOffset := by rw [pending.offset, found, elim_some]
    have served := staging.moved moves (keeps _ mine)
    refine ⟨met, staged.progress.snapshotId, ?_, ?_, ?_⟩
    · simpa only [heldUnder, found, getD_some] using served
    · simp only [heldUnder, found, getD_some]
      rw [offset, ← staging.cursor]
    · obtain ⟨left, result⟩ := serve_resumed checked (pending.snapshotId.trans mine)
      rw [result]
      rw [left] at served
      rw [InMemoryAuthoritativeStore.readSnapshot_eq served.stored]
      rw [AuthoritativeState.capture_length, offset]
      exact staging.inside
  | none =>
    have begun : run.progress.snapshotId = none := by
      rw [pending.snapshotId]
      simp [stagedId, referenceClient, found]
    have offset : run.progress.offset = 0 := by rw [pending.offset, found, elim_none]
    obtain ⟨left, result⟩ := serve_begun checked begun
    have later := (forall_blocks (forall_blocks unmixed).2).1
    have captured : ((final InMemoryAuthoritativeStore.step run.store (attempt.blocks.headD [])).step
        (.createSnapshot setting.tenant setting.scope attempt.snapshotId)).state.snapshots[
          (setting.tenant, attempt.snapshotId)]? =
        some ((final InMemoryAuthoritativeStore.step run.store (attempt.blocks.headD [])).state.capture
          setting.tenant setting.scope attempt.snapshotId) := ExtTreeMap.getElem?_insert_self
    have stored := (InMemoryAuthoritativeStore.final_snapshot_kept fun action listed =>
      (later action listed).1).trans captured
    refine ⟨final InMemoryAuthoritativeStore.step run.store (attempt.blocks.headD []), attempt.snapshotId,
      ?_, ?_, ?_⟩
    · simp only [heldUnder, found, getD_none]
      rw [left]
      exact ⟨follows.trans ⟨_, rfl⟩, ⟨_ :: _, rfl⟩, stored, rfl, rfl, Nat.zero_le _⟩
    · simp only [heldUnder, found, getD_none, offset]
    · rw [result, InMemoryAuthoritativeStore.readSnapshot_eq stored]
      rw [offset]
      exact Nat.zero_le _

end BootstrapSetting

end Aequora.Client
