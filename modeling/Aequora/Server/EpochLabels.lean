import Aequora.Authority.EpochAnchor
import Aequora.Server.PagedPull
import Aequora.Server.Site

/-! Epoch labels under failover. A request samples the authority at its first access and labels with
that epoch what it reads at its last one. -/

namespace Aequora.Server

open Aequora.Base Aequora.Protocol Aequora.Store Aequora.Authority Site Run Program SiteAction AuthorityController InMemoryAuthoritativeStore

namespace SyncServer
variable (server : SyncServer)

section
variable (auth : AuthContext) (request : BootstrapRequest) (snapshotId : SnapshotId)

/-- The page of a snapshot a bootstrap reads at its end. -/
def pageFor
    (store : InMemoryAuthoritativeStore) : Except StoreError SnapshotPage :=
  store.readSnapshot auth.tenantId snapshotId request.offset
    (min request.limits.maxEntities server.config.maxRecordsPerChunk)
    (min request.limits.maxPayloadBytes server.config.maxChunkBytes)

/-- The changes of the answer were read while the authority was in the epoch of its label. -/
def TruthfulExchange (auth : AuthContext) (request : SyncRequest)
    (passage : Passage Site (Except ServerError SyncResponse)) (response : SyncResponse) : Prop :=
  ∃ read, passage.met.getLast? = some read ∧ read.epoch = response.nextCursor.authorityEpoch ∧
    response.changes <+: (server.changesFor auth request read.store).changes

/-- The entities of the page were read while the authority was in the epoch of its label, and
belong to a snapshot captured in that epoch. -/
def TruthfulPage
    (passage : Passage Site (Except ServerError BootstrapResponse)) (response : BootstrapResponse) :
    Prop :=
  ∃ read, passage.met.getLast? = some read ∧ read.epoch = response.cursor.authorityEpoch ∧
    read.capturedIn (auth.tenantId, snapshotId) = some response.cursor.authorityEpoch ∧
    ∃ page, server.pageFor auth request snapshotId read.store = .ok page ∧
      response.entities = page.entities

end

end SyncServer

/-- Between the first access of a request, which samples the authority, and the last of the given
number of accesses no call changes the epoch. -/
def EpochHeld (site : Site) (blocks : List (List SiteAction)) (accesses : Nat) : Prop :=
  EpochKept (final Site.step site (blocks.headD [])).controller
    ((blocks.tail.take (accesses - 1)).flatten.filterMap onAuthority)

theorem epochHeld_iff {site read : Site} (moved : read.controller = final AuthorityController.step site.controller
      ((blocks.take (count + 1)).flatten.filterMap onAuthority)) :
    EpochHeld site blocks (count + 1) ↔
      read.epoch = (final Site.step site (blocks.headD [])).epoch := by
  rw [flatten_take_succ, List.filterMap_append, final_append, ← final_controller] at moved
  rw [epoch, moved]
  exact epochKept_iff ..

namespace SyncServer
variable {server : SyncServer}

/-- An exchange that continues answers with what its last access read, under the given label. -/
theorem process_endsIn (environment : Environment) (request : SyncRequest)
    (last : Option InMemoryAuthoritativeStore) :
    (server.process environment auth request).EndsIn (fun last result =>
      ∀ response, result = .ok response → response.directive = .continue →
        response.nextCursor.authorityEpoch = environment.authority.epoch ∧
          ∃ store, last = some store ∧
            response.changes <+: (server.changesFor auth request store).changes) last := by
  apply (process_continues environment request last).mono
  intro _ _ continues response reported continued
  obtain ⟨read, _, found, -, fits⟩ := continues response reported continued
  obtain ⟨_, dropped, parts, fitted⟩ := respond_fitted fits
  cases fitted.shape
  exact ⟨rfl, read, found, dropped, parts.symm⟩

/-- An exchange labels with the epoch it sampled what it reads at its end, so its label is truthful
exactly when the epoch was held in between. -/
theorem exchange_truthful_iff
    (ran : (server.exchangeAt environment auth request).runAmong Site.step site blocks = passage)
    (answered : passage.result = .ok response) (continued : response.directive = .continue) :
    server.TruthfulExchange auth request passage response ↔ EpochHeld site blocks passage.met.length := by
  let sampled := Run.final Site.step site (blocks.headD [])
  let program := server.process { environment with authority := sampled.controller.state } auth request
  let rest := (program.within Site.store withStore).runAmong Site.step sampled blocks.tail
  obtain rfl : { rest with met := sampled :: rest.met } = passage := ran
  have ends : program.EndsIn _ none := process_endsIn _ request none
  obtain ⟨label, _, final, kept⟩ :=
    ends.passage Site.step sampled blocks.tail response answered continued
  rw [Option.or_none] at final
  obtain ⟨read, last, rfl⟩ := Option.map_eq_some_iff.mp final
  have controller := Each.last_met step_controller (within_controller program) last
  have shown : (sampled :: rest.met).getLast? = some read := by
    rw [List.getLast?_cons, show rest.met.getLast? = some read from last]
    rfl
  have held : EpochHeld site blocks (sampled :: rest.met).length ↔ read.epoch = sampled.epoch := by
    rw [epoch, controller]
    exact epochKept_iff ..
  rw [held]
  constructor
  · rintro ⟨_, same, truthful, -⟩
    cases shown.symm.trans same
    exact truthful.trans label
  · intro same
    exact ⟨read, shown, same.trans label.symm, kept⟩

section Bootstrap
theorem answerPage_ok {read : Except StoreError SnapshotPage}
    (answered : answerPage environment request read = .ok response) :
    response.cursor.authorityEpoch = environment.authority.epoch ∧
      ∃ page, read = .ok page ∧ response.entities = page.entities := by
  cases read with
  | error _ => cases answered
  | ok page =>
    simp only [answerPage] at answered
    split at answered
    · cases answered
    · cases answered
      exact ⟨rfl, page, rfl, rfl⟩

section
variable (checked : server.checkBootstrap environment auth request = .ok ())
include checked

/-- A bootstrap that resumes a snapshot only reads. -/
theorem processBootstrap_resumed
    (resumed : request.snapshotId = some snapshotId) :
    server.processBootstrap environment auth request =
      .access (fun store => (store, server.pageFor auth request snapshotId store)) fun page =>
        .done (answerPage environment request page) := by
  unfold processBootstrap selectSnapshot
  rw [checked, resumed]
  rfl

/-- A bootstrap that begins captures its snapshot and then reads. -/
theorem processBootstrap_begun
    (begun : request.snapshotId = none) :
    server.processBootstrap environment auth request =
      .access (fun store => store.createSnapshotInTimeline auth.tenantId request.session.scopeId
        { authorityId := environment.authority.authorityId, epoch := environment.authority.epoch }
        environment.snapshotId) fun descriptor =>
      .access (fun store => (store, server.pageFor auth request descriptor.snapshotId store)) fun page =>
        .done (answerPage environment request page) := by
  unfold processBootstrap selectSnapshot
  rw [checked, begun]
  rfl

end

def sampledAt (environment : BootstrapEnvironment) (sampled startup : Site) : BootstrapEnvironment :=
  { environment with authority := sampled.controller.state, startupAuthority := startup.controller }

theorem bootstrap_passage (site : Site) (blocks : List (List SiteAction)) :
    (server.bootstrapAt environment auth request).runAmong Site.step site blocks =
      let sampled := final Site.step site (blocks.headD [])
      let startup := final Site.step sampled (blocks.tail.headD [])
      let rest := ((server.processBootstrap (sampledAt environment sampled startup) auth request).within
        Site.store withStore).runAmong Site.step startup blocks.tail.tail
      { rest with met := sampled :: startup :: rest.met } := rfl

variable {passage : Passage Site (Except ServerError BootstrapResponse)}
  (ran : (server.bootstrapAt environment auth request).runAmong Site.step site blocks = passage)
include ran

/-- A bootstrap that is answered has passed its checks under what it sampled. -/
theorem bootstrap_checked (answered : passage.result = .ok response) :
    server.checkBootstrap (sampledAt environment (final Site.step site (blocks.headD []))
      (final Site.step (final Site.step site (blocks.headD [])) (blocks.tail.headD []))) auth
      request = .ok () := by
  rw [← ran, bootstrap_passage] at answered
  dsimp only at answered
  generalize sampledAt environment _ _ = surroundings at answered ⊢
  cases checked : server.checkBootstrap surroundings auth request with
  | ok => rfl
  | error _ =>
    unfold processBootstrap at answered
    rw [checked] at answered
    cases answered

/-- The controller at the last access is the first one moved by the foreign calls since then. -/
theorem bootstrap_controller {read : Site} (last : passage.met.getLast? = some read) :
    read.controller = final AuthorityController.step site.controller
      ((blocks.take passage.met.length).flatten.filterMap onAuthority) := by
  subst ran
  have looks {Answer : Type} (look : Site → Answer) : (observe look).Each
      (Framed fun before after => after.controller = before.controller) :=
    each_atomically fun _ => rfl
  refine Each.last_met step_controller ?_ last
  exact (looks _).bind fun _ => (looks _).bind fun _ => within_controller _

omit ran in
/-- The label of a page is truthful exactly when it names both the epoch in which the page was read
and that in which its snapshot was captured. -/
theorem truthfulPage_iff {read : Site} (last : passage.met.getLast? = some read)
    (shown : ∃ page, server.pageFor auth request snapshotId read.store = .ok page ∧
      response.entities = page.entities)
    (remembered : read.capturedIn (auth.tenantId, snapshotId) = some captured) :
    server.TruthfulPage auth request snapshotId passage response ↔
      read.epoch = response.cursor.authorityEpoch ∧ captured = response.cursor.authorityEpoch := by
  constructor
  · rintro ⟨_, same, truthful, belongs, -⟩
    cases last.symm.trans same
    exact ⟨truthful, Option.some.inj (remembered.symm.trans belongs)⟩
  · rintro ⟨truthful, belongs⟩
    exact ⟨read, last, truthful, belongs ▸ remembered, shown⟩

/-- The first page of a new snapshot is labelled truthfully exactly when the epoch was held. -/
theorem begun_truthful_iff (begun : request.snapshotId = none)
    (unused : site.store.state.snapshots[(auth.tenantId, environment.snapshotId)]? = none)
    (others : ∀ action ∈ blocks.flatten, ¬action.Captures (auth.tenantId, environment.snapshotId))
    (answered : passage.result = .ok response) :
    server.TruthfulPage auth request environment.snapshotId passage response ↔
      EpochHeld site blocks passage.met.length := by
  let sampled := final Site.step site (blocks.headD [])
  let startup := final Site.step sampled (blocks.tail.headD [])
  let capture := final Site.step startup (blocks.tail.tail.headD [])
  let created := capture.withStore (capture.store.createSnapshotInTimeline auth.tenantId
    request.session.scopeId ⟨sampled.controller.state.authorityId, sampled.controller.state.epoch⟩
    environment.snapshotId).1
  let read := final Site.step created (blocks.tail.tail.tail.headD [])
  have checked := bootstrap_checked ran answered
  obtain rfl :
      { met := [sampled, startup, capture, read]
        left := read.withStore read.store
        result := answerPage (sampledAt environment sampled startup) request
          (server.pageFor auth request environment.snapshotId read.store) } = passage := by
    rw [← ran, bootstrap_passage]
    dsimp only
    rw [processBootstrap_begun checked begun]
    rfl
  have last : [sampled, startup, capture, read].getLast? = some read := rfl
  have controller := bootstrap_controller ran last
  obtain ⟨label, shown⟩ := answerPage_ok answered
  -- The snapshot appears with the capture and is remembered under the epoch of that moment.
  obtain ⟨beforeSample, others⟩ := forall_blocks others
  obtain ⟨beforeStartup, others⟩ := forall_blocks others
  obtain ⟨beforeCapture, others⟩ := forall_blocks others
  have absent : capture.store.state.snapshots[(auth.tenantId, environment.snapshotId)]? = none :=
    (Site.final_kept beforeCapture).1.trans ((Site.final_kept beforeStartup).1.trans
      ((Site.final_kept beforeSample).1.trans unused))
  have remembered : created.capturedIn (auth.tenantId, environment.snapshotId) = some capture.epoch := by
    refine if_neg fun same => ?_
    rw [absent] at same
    simp [createSnapshotInTimeline,
      createSnapshot] at same
  have captured : read.capturedIn (auth.tenantId, environment.snapshotId) = some capture.epoch :=
    (Site.final_kept (forall_blocks others).1).2.trans remembered
  rw [truthfulPage_iff last shown captured, label]
  refine Iff.trans ?_ (epochHeld_iff controller).symm
  refine and_iff_left_of_imp fun same => ?_
  have before : sampled.epoch ≤ capture.epoch :=
    (Site.epoch_le_final sampled _).trans (Site.epoch_le_final startup _)
  have after : capture.epoch ≤ read.epoch := Site.epoch_le_final created _
  exact Nat.le_antisymm (same ▸ after) before

/-- A page of a resumed snapshot is labelled truthfully exactly when the epoch was held from the
capture of the snapshot to the read of the page. -/
theorem resumed_truthful_iff (resumed : request.snapshotId = some snapshotId)
    (unused : origin.store.state.snapshots[(auth.tenantId, snapshotId)]? = none)
    (reached : final Site.step origin
      (.store (.createSnapshot auth.tenantId scope snapshotId) :: since) = site)
    (others : ∀ action ∈ since ++ blocks.flatten, ¬action.Captures (auth.tenantId, snapshotId))
    (answered : passage.result = .ok response) :
    server.TruthfulPage auth request snapshotId passage response ↔ EpochKept origin.controller
      ((since ++ (blocks.take passage.met.length).flatten).filterMap onAuthority) := by
  let sampled := final Site.step site (blocks.headD [])
  let startup := final Site.step sampled (blocks.tail.headD [])
  let read := final Site.step startup (blocks.tail.tail.headD [])
  have checked := bootstrap_checked ran answered
  obtain rfl :
      { met := [sampled, startup, read]
        left := read.withStore read.store
        result := answerPage (sampledAt environment sampled startup) request
          (server.pageFor auth request snapshotId read.store) } = passage := by
    rw [← ran, bootstrap_passage]
    dsimp only
    rw [processBootstrap_resumed checked resumed]
    rfl
  have last : [sampled, startup, read].getLast? = some read := rfl
  have controller := bootstrap_controller ran last
  obtain ⟨label, shown⟩ := answerPage_ok answered
  obtain ⟨sinceOthers, blockOthers⟩ := List.forall_mem_append.mp others
  obtain ⟨beforeSample, blockOthers⟩ := forall_blocks blockOthers
  obtain ⟨beforeStartup, blockOthers⟩ := forall_blocks blockOthers
  have remembered : site.capturedIn (auth.tenantId, snapshotId) = some origin.epoch := by
    rw [← reached, final_cons, (Site.final_kept sinceOthers).2]
    refine if_neg fun same => ?_
    rw [unused] at same
    simp [InMemoryAuthoritativeStore.step, InMemoryAuthoritativeStore.createSnapshot] at same
  have captured : read.capturedIn (auth.tenantId, snapshotId) = some origin.epoch :=
    (Site.final_kept (forall_blocks blockOthers).1).2.trans ((Site.final_kept beforeStartup).2.trans
      ((Site.final_kept beforeSample).2.trans remembered))
  have moved : site.controller = final AuthorityController.step origin.controller
      (since.filterMap onAuthority) := by
    rw [← reached, final_cons, Site.final_controller]
    rfl
  rw [truthfulPage_iff last shown captured, label, epochKept_iff, List.filterMap_append, final_append,
    ← moved, ← controller]
  change read.epoch = sampled.epoch ∧ origin.epoch = sampled.epoch ↔ read.epoch = origin.epoch
  constructor
  · rintro ⟨truthful, belongs⟩
    exact truthful.trans belongs.symm
  · intro same
    have before : origin.epoch ≤ sampled.epoch := by
      have captures := Site.epoch_le_final origin
        (.store (.createSnapshot auth.tenantId scope snapshotId) :: since)
      rw [reached] at captures
      exact captures.trans (Site.epoch_le_final site _)
    have after : sampled.epoch ≤ read.epoch :=
      (Site.epoch_le_final sampled _).trans (Site.epoch_le_final startup _)
    have between : origin.epoch = sampled.epoch := Nat.le_antisymm before (same ▸ after)
    exact ⟨same.trans between, between⟩

end Bootstrap

/-- Among any actions on the authority and the store, a label is truthful exactly when no call
changes the epoch from the sample to the read, and for a resumed snapshot already from its capture. -/
theorem epoch_labels_truthful_iff (server : SyncServer) (auth : AuthContext) (site : Site) :
    (∀ environment request blocks response,
      ((server.exchangeAt environment auth request).runAmong Site.step site blocks).result =
        .ok response → response.directive = .continue →
      (server.TruthfulExchange auth request
          ((server.exchangeAt environment auth request).runAmong Site.step site blocks) response ↔
        EpochHeld site blocks
          ((server.exchangeAt environment auth request).runAmong Site.step site blocks).met.length)) ∧
    (∀ environment request blocks response, request.snapshotId = none →
      site.store.state.snapshots[(auth.tenantId, environment.snapshotId)]? = none →
      (∀ action ∈ blocks.flatten, ¬action.Captures (auth.tenantId, environment.snapshotId)) →
      ((server.bootstrapAt environment auth request).runAmong Site.step site blocks).result =
        .ok response →
      (server.TruthfulPage auth request environment.snapshotId
          ((server.bootstrapAt environment auth request).runAmong Site.step site blocks) response ↔
        EpochHeld site blocks
          ((server.bootstrapAt environment auth request).runAmong Site.step site blocks).met.length)) ∧
    ∀ origin scope snapshotId since environment request blocks response,
      request.snapshotId = some snapshotId →
      origin.store.state.snapshots[(auth.tenantId, snapshotId)]? = none →
      final Site.step origin (.store (.createSnapshot auth.tenantId scope snapshotId) :: since) =
        site →
      (∀ action ∈ since ++ blocks.flatten, ¬action.Captures (auth.tenantId, snapshotId)) →
      ((server.bootstrapAt environment auth request).runAmong Site.step site blocks).result =
        .ok response →
      (server.TruthfulPage auth request snapshotId
          ((server.bootstrapAt environment auth request).runAmong Site.step site blocks) response ↔
        EpochKept origin.controller ((since ++ (blocks.take
          ((server.bootstrapAt environment auth request).runAmong Site.step site blocks).met.length
          ).flatten).filterMap onAuthority)) := by
  refine ⟨?_, ?_, ?_⟩
  · intro environment request blocks response answered continued
    exact exchange_truthful_iff rfl answered continued
  · intro environment request blocks response begun unused others answered
    exact begun_truthful_iff rfl begun unused others answered
  · intro _ _ _ _ _ _ _ _ resumed unused reached others answered
    exact resumed_truthful_iff rfl resumed unused reached others answered

end SyncServer

def exampleSite : Site where
  controller := .new exampleState .default
  store := .default
  capturedIn _ := none

def exampleFailover : SiteAction :=
  .authority (.promote exampleLoss ⟨2⟩ none 0)

def examplePull : SyncRequest where
  protocol := 1
  requestId := ⟨1⟩
  session := ⟨⟨1⟩, ⟨1⟩, ⟨1⟩, ⟨1⟩, ⟨1⟩, []⟩
  cursor := none
  operations := []
  limits := { maxChanges := 16, maxResponseBytes := 4096 }

def exampleResume (snapshotId : SnapshotId) : BootstrapRequest where
  protocol := 1
  requestId := ⟨1⟩
  session := ⟨⟨1⟩, ⟨1⟩, ⟨1⟩, ⟨1⟩, ⟨1⟩, []⟩
  snapshotId := some snapshotId
  offset := 0
  limits := { maxEntities := 16, maxPayloadBytes := 4096 }

/-- A pull that samples the first epoch, falls behind a failover and reads a commit of the second
epoch. -/
def examplePulled : Passage Site (Except ServerError SyncResponse) :=
  (exampleServer.exchangeAt (exampleEnvironment 1) exampleAuth examplePull).runAmong Site.step exampleSite
    [[], [exampleFailover, .store (exampleWrite 1 ⟨1⟩ none 1)]]

/-- A page of a snapshot that was captured before a failover and is read after it. -/
def exampleResumed : Passage Site (Except ServerError BootstrapResponse) :=
  (exampleServer.bootstrapAt ⟨exampleState, .new exampleState .default,
      ⟨2⟩, ⟨0, 0, ⟨1⟩⟩⟩ exampleAuth (exampleResume ⟨1⟩)).runAmong Site.step exampleSite
    [[.store (exampleWrite 1 ⟨1⟩ none 1), .store (.createSnapshot ⟨1⟩ ⟨1⟩ ⟨1⟩), exampleFailover]]

/-- The pull is answered with the label of the first epoch over a change read in the second, and
the page with the label of the second epoch over a snapshot captured in the first. -/
theorem SyncServer.epoch_labels_not_truthful : examplePulled.result.toOption.map (fun response =>
        (response.nextCursor.authorityEpoch, response.changes.map RemoteChange.operationId)) =
      some (1, [⟨1⟩]) ∧
    examplePulled.met.getLast?.map epoch = some 2 ∧
    exampleResumed.result.toOption.map (fun response =>
        (response.cursor.authorityEpoch, response.entities.map SnapshotEntity.version)) =
      some (2, [1]) ∧
    exampleResumed.met.getLast?.map (fun site => site.capturedIn (⟨1⟩, ⟨1⟩)) = some (some 1) := by
  decide +kernel

end Aequora.Server
