import Aequora.Server.Process

/-! What one exchange can do, in every interleaving with others: it records an operation only in a
state that accepts it, and what it acknowledges is in the ledger. -/

namespace Aequora.Server

open Aequora.Base Aequora.Protocol Aequora.Store Aequora.Authority AuthoritativeState Program SyncServer

section
variable (auth : AuthContext) (operation : OperationEnvelope)

def AuthContext.operationKey : OperationKey :=
  (auth.tenantId, operation.operationId)

/-- Between two accesses the store may have moved on, but has forgotten nothing. -/
def Onward (before after : InMemoryAuthoritativeStore) : Prop := before.state.Extends after.state

theorem Onward.refl (store : InMemoryAuthoritativeStore) : Onward store store :=
  Extends.refl store.state

theorem Onward.trans (left : Onward first second) (right : Onward second third) : Onward first third :=
  Extends.trans left right

/-- The lineage the store recorded for the operation is the one presented. -/
def SameLineage (state : AuthoritativeState) : Prop :=
  state.operationLineages[auth.operationKey operation]? = some (resolvedLineage operation)

/-- The ledger records a result for the operation. -/
def Completed (tenant : TenantId) (state : AuthoritativeState) (operation : OperationId) : Prop :=
  ∃ recorded, state.ledger[(tenant, operation)]? = some recorded

instance (tenant : TenantId) (state : AuthoritativeState) (operation : OperationId) :
    Decidable (Completed tenant state operation) :=
  decidable_of_iff (state.ledger[(tenant, operation)]?.isSome = true) Option.isSome_iff_exists

/-- The store remembers an authenticated operation, under its lineage, with the recorded result. -/
structure Remembers (recorded : OperationAck)
    (state : AuthoritativeState) : Prop where
  authenticated : auth.Matches operation
  ledger : state.ledger[auth.operationKey operation]? = some recorded
  lineage : SameLineage auth operation state

end

/-- The state in which a fresh operation commits: it is authenticated and authorized, what it
depends on is recorded, and the decision on the entity as it stands is to commit. -/
structure SyncServer.Accepts (server : SyncServer) (auth : AuthContext) (operation : OperationEnvelope)
    (state : AuthoritativeState) : Prop where
  authenticated : auth.Matches operation
  fresh : ¬Completed auth.tenantId state operation.operationId
  dependencies : ∀ dependency ∈ operation.metadata.dependencies, Completed auth.tenantId state dependency
  authorized : server.executor.authorize auth operation = .ok ()
  decided : ∃ mutation nextVersion, server.evaluate auth operation
    (state.entities[(auth.tenantId, operation.entity)]?.map EntitySnapshot.current) =
      .ok (.commit mutation nextVersion)

/-- One access of an exchange with the given operations: the store moves onward, and a newly
recorded operation is one of them and was acceptable. -/
structure SyncServer.Commits (server : SyncServer) (auth : AuthContext)
    (operations : List OperationEnvelope) (before after : InMemoryAuthoritativeStore) : Prop where
  onward : Onward before after
  accepted : ∀ tenant id, Completed tenant after.state id → Completed tenant before.state id ∨
    (operations.map OperationEnvelope.operationId).Nodup ∧ ∃ operation ∈ operations,
      tenant = auth.tenantId ∧ id = operation.operationId ∧ server.Accepts auth operation before.state

section Onward
variable {store : InMemoryAuthoritativeStore}

theorem Onward.completed (move : Onward store later) {id : OperationId}
    (completed : Completed tenant store.state id) : Completed tenant later.state id := by
  obtain ⟨recorded, found⟩ := completed
  exact ⟨recorded, (Extends.recorded move _ _ found).1⟩

theorem Onward.sameLineage_iff (move : Onward store later)
    (found : store.state.ledger[auth.operationKey operation]? = some recorded) :
    SameLineage auth operation later.state ↔ SameLineage auth operation store.state := by
  unfold SameLineage
  rw [(Extends.recorded move _ _ found).2.1]

variable (remembers : Remembers auth operation recorded store.state)
include remembers

theorem Remembers.onward (move : Onward store later) : Remembers auth operation recorded later.state where
  authenticated := remembers.authenticated
  ledger := (Extends.recorded move _ _ remembers.ledger).1
  lineage := (move.sameLineage_iff remembers.ledger).mpr remembers.lineage

theorem Remembers.operationId (keyed : store.state.WellKeyed) : recorded.operationId = operation.operationId :=
  keyed _ _ remembers.ledger

end Onward

namespace SyncServer
variable {server : SyncServer}

theorem Commits.refl (store : InMemoryAuthoritativeStore) : server.Commits auth operations store store where
  onward := .refl store
  accepted _ _ := .inl

/-- A commit of an accepted operation, however the store answers it. -/
theorem Commits.of_committed (ended : Committed store commit next result)
    (distinct : (operations.map OperationEnvelope.operationId).Nodup) (member : operation ∈ operations)
    (key : commit.operationKey = auth.operationKey operation)
    (accepts : store.state.Admits commit → server.Accepts auth operation store.state) :
    server.Commits auth operations store next where
  onward := ended.extends
  accepted tenant id completed := by
    -- Only the two outcomes that publish can add to the ledger, and they add the commit's key.
    have added (admitted : store.state.Admits commit)
        (present : Completed tenant (store.state.committed commit) id) :
        Completed tenant store.state id ∨ (operations.map OperationEnvelope.operationId).Nodup ∧
          ∃ operation ∈ operations, tenant = auth.tenantId ∧ id = operation.operationId ∧
            server.Accepts auth operation store.state := by
      obtain ⟨recorded, found⟩ := present
      by_cases same : commit.operationKey = (tenant, id)
      · obtain ⟨sameTenant, sameId⟩ := Prod.mk.inj (same.symm.trans key)
        exact .inr ⟨distinct, operation, member, sameTenant, sameId, accepts admitted⟩
      · left
        refine ⟨recorded, ?_⟩
        simpa [committed, publish, lookup_insert, same] using found
    cases ended with
    | applied admitted => exact added admitted completed
    | lost admitted => exact added admitted completed
    | _ => exact .inl completed

/-- The rule of sequence for the parts of an exchange. -/
theorem ensures_then {rest : First → Program InMemoryAuthoritativeStore Second}
    (ensures : program.Ensures Onward (server.Commits auth operations) between store)
    (continued : ∀ result later, Onward store later → between result later →
      (rest result).Ensures Onward (server.Commits auth operations) post later) :
    (program >>= rest).Ensures Onward (server.Commits auth operations) post store := by
  apply Ensures.bind Onward.refl
  exact (ensures.moved (Onward.refl store) (fun _ _ => Commits.onward) Onward.trans).mono
    (fun _ _ => id) fun result later ended => continued result later ended.1 ended.2

end SyncServer

section
variable (auth : AuthContext) (operation : OperationEnvelope)

/-- What a result claims: an acknowledgement repeats what the store remembers, and every result
names its operation. -/
def Truthful (state : AuthoritativeState) :
    ProcessResult → Prop
  | .acknowledged ack => ∃ recorded, Remembers auth operation recorded state ∧
      ack = { recorded with duplicate := ack.duplicate }
  | .rejected rejection => rejection.operationId = operation.operationId
  | .conflict conflict => conflict.operationId = operation.operationId

/-- A call that returns a result returns a truthful one. -/
def Reports (result : Except ServerError ProcessResult) (store : InMemoryAuthoritativeStore) : Prop :=
  ∀ outcome, result = .ok outcome → Truthful auth operation store.state outcome

/-- A truthful result, which is an acknowledgement where the call found the operation remembered. -/
structure Answers (start : InMemoryAuthoritativeStore)
    (result : Except ServerError ProcessResult) (store : InMemoryAuthoritativeStore) : Prop where
  reports : Reports auth operation result store
  repeats : ∀ recorded, Remembers auth operation recorded start.state →
    ∀ outcome, result = .ok outcome → ∃ ack, outcome = .acknowledged ack

end

section Reports
variable {server : SyncServer}
theorem Truthful.onward (truthful : Truthful auth operation store.state outcome)
    (move : Onward store later) : Truthful auth operation later.state outcome := by
  cases outcome with
  | acknowledged _ =>
    obtain ⟨recorded, remembers, same⟩ := truthful
    exact ⟨recorded, remembers.onward move, same⟩
  | rejected _ => exact truthful
  | conflict _ => exact truthful

theorem Reports.error {error : ServerError} : Reports auth operation (.error error) store :=
  fun _ reported => nomatch reported

theorem Reports.ok (truthful : Truthful auth operation store.state outcome) :
    Reports auth operation (.ok outcome) store := by
  intro _ same
  exact Except.ok.inj same ▸ truthful

theorem mergePolicy_names (refused : server.mergePolicy operation version = .error conflict) :
    conflict.operationId = operation.operationId := by
  unfold mergePolicy at refused
  split at refused
  · cases refused
  · cases refused
    rfl
  · dsimp only at refused
    split at refused <;> cases refused
    rfl

theorem merge_names (unresolved : server.merge operation current candidate policy = .ok (.inr conflict)) :
    conflict.operationId = operation.operationId := by
  unfold merge at unresolved
  split at unresolved
  · cases unresolved
  · split at unresolved
    · cases Sum.inr.inj (Except.ok.inj unresolved)
      rfl
    · split at unresolved
      · cases unresolved
      · cases unresolved
      · cases Sum.inr.inj (Except.ok.inj unresolved)
        rfl

theorem evaluate_report (decided : server.evaluate auth operation current = .ok (.report outcome))
    (state : AuthoritativeState) : Truthful auth operation state outcome := by
  unfold evaluate at decided
  split at decided
  · cases Decision.report.inj (Except.ok.inj decided)
    exact mergePolicy_names ‹_›
  · split at decided
    · cases Decision.report.inj (Except.ok.inj decided)
      rfl
    · split at decided
      · cases decided
      · cases Decision.report.inj (Except.ok.inj decided)
        exact merge_names ‹_›
      · split at decided
        · cases decided
        · split at decided <;> cases decided

theorem reportCommit_truthful (ended : Committed store commit next result)
    (authenticated : auth.Matches operation) (key : commit.operationKey = auth.operationKey operation)
    (lineage : commit.operationLineage = resolvedLineage operation) :
    Reports auth operation (server.reportCommit operation result) next := by
  cases ended with
  | invalid _ => exact .error
  | failed _ => exact .error
  | lost admitted => exact .error
  | versionChanged _ _ => exact .ok rfl
  | applied _ =>
    refine .ok ⟨commit.ack (store.state.nextSequence commit.scopeKey), ⟨authenticated, ?_, ?_⟩, rfl⟩
    · simp [committed, publish, staged, ← key]
    · simp [SameLineage, committed, publish, key, lineage]
  | @retried previous recorded =>
    unfold InMemoryAuthoritativeStore.retry
    split
    · exact .error
    · rename_i same
      split
      · exact .error
      · refine .ok ⟨previous, ⟨authenticated, key ▸ recorded, ?_⟩, rfl⟩
        rw [SameLineage, ← key, ← lineage]
        exact not_not.mp same

end Reports

namespace SyncServer
variable {server : SyncServer}
variable {operations : List OperationEnvelope}
theorem retryOperation_ensures (authenticated : auth.Matches operation)
    (found : store.state.ledger[auth.operationKey operation]? = some recorded) :
    (retryOperation auth operation recorded).Ensures Onward (server.Commits auth operations)
      (Answers auth operation store) store := by
  apply ensures_observe_bind Commits.refl
  intro looked move
  have kept := (Extends.recorded move _ _ found).1
  split
  · rename_i differs
    refine ensures_pure fun later _ => ⟨.ok rfl, fun _ remembers => ?_⟩
    exact absurd (remembers.onward move).lineage differs
  · rename_i same
    have remembers : Remembers auth operation recorded looked.state :=
      ⟨authenticated, kept, not_not.mp same⟩
    refine ensures_pure fun later further =>
      ⟨.ok ⟨recorded, remembers.onward further, rfl⟩, fun _ _ outcome reported => ?_⟩
    exact ⟨_, (Except.ok.inj reported).symm⟩

/-- All dependencies of an operation are recorded when the check lets it through. -/
theorem dependenciesCompleted_ensures {dependencies : List OperationId}
    (recorded : ∀ id ∈ completed, Completed auth.tenantId store.state id) :
    (dependenciesCompleted auth.tenantId completed dependencies).Ensures Onward
      (server.Commits auth operations)
      (fun ready later => ready = true →
        ∀ dependency ∈ dependencies, Completed auth.tenantId later.state dependency) store := by
  induction dependencies generalizing store with
  | nil => exact ensures_pure fun _ _ _ _ member => nomatch member
  | cons dependency rest ih =>
    -- A dependency that is recorded now stays recorded while the others are looked up.
    have continued {looked : InMemoryAuthoritativeStore} (move : Onward store looked)
        (present : Completed auth.tenantId looked.state dependency) :
        (dependenciesCompleted auth.tenantId completed rest).Ensures Onward
          (server.Commits auth operations) (fun ready later => ready = true →
            ∀ member ∈ dependency :: rest, Completed auth.tenantId later.state member) looked := by
      have ensures := (ih fun id member => move.completed (recorded id member)).moved (Onward.refl looked)
        (fun _ _ => Commits.onward) Onward.trans
      refine ensures.mono (fun _ _ => id) fun ready later ended passed => ?_
      exact List.forall_mem_cons.mpr ⟨ended.1.completed present, ended.2 passed⟩
    unfold dependenciesCompleted
    split
    · exact continued (.refl store) (recorded dependency ‹_›)
    · apply ensures_observe_bind Commits.refl
      intro _ move
      split
      · exact ensures_pure fun _ _ passed => nomatch passed
      · rename_i present
        exact continued move (Option.ne_none_iff_exists'.mp (mt Option.isNone_iff_eq_none.mpr present))

/-- An authorized operation commits only in a state that accepts it. -/
theorem executeOperation_ensures (distinct : (operations.map OperationEnvelope.operationId).Nodup)
    (member : operation ∈ operations) (authenticated : auth.Matches operation)
    (dependencies : ∀ dependency ∈ operation.metadata.dependencies,
      Completed auth.tenantId store.state dependency)
    (authorized : server.executor.authorize auth operation = .ok ()) :
    (server.executeOperation environment index auth operation scopeId context).Ensures Onward
      (server.Commits auth operations) (Reports auth operation) store := by
  apply ensures_observe_bind Commits.refl
  intro looked move
  dsimp only
  cases decided : server.evaluate auth operation
      ((looked.readEntity auth.tenantId operation.entity).map EntitySnapshot.current) with
  | error error => exact ensures_pure fun _ _ => .error
  | ok decision =>
    cases decision with
    | report outcome => exact ensures_pure fun later _ => .ok (evaluate_report decided later.state)
    | commit mutation nextVersion =>
      dsimp only
      split
      · exact ensures_pure fun _ _ => .error
      · apply ensures_atomically_bind
        intro later further
        have ended := later.commitOperation_committed (server.commitFor auth operation scopeId context
          (environment.eventId index) (environment.now index)
          ((looked.readEntity auth.tenantId operation.entity).map EntitySnapshot.current) mutation
          nextVersion)
        refine ⟨.of_committed ended distinct member rfl fun admitted => ?_, ?_⟩
        · -- The version check of the commit makes the entity that was read the current one.
          have unchanged : later.state.entities[(auth.tenantId, operation.entity)]? =
              looked.state.entities[(auth.tenantId, operation.entity)]? := by
            apply Extends.unchanged further
            exact admitted.current.trans (Option.map_map _ _ _)
          exact {
            authenticated
            fresh := fun ⟨recorded, found⟩ => nomatch found.symm.trans admitted.fresh
            dependencies := fun dependency needed =>
              (move.trans further).completed (dependencies dependency needed)
            authorized
            decided := ⟨mutation, nextVersion, unchanged ▸ decided⟩ }
        · exact ensures_pure fun last final outcome reported =>
            (reportCommit_truthful ended authenticated rfl rfl outcome reported).onward final

variable (distinct : (operations.map OperationEnvelope.operationId).Nodup) (member : operation ∈ operations)
include distinct member

theorem processFresh_ensures (authenticated : auth.Matches operation)
    (recorded : ∀ id ∈ completed, Completed auth.tenantId store.state id) :
    (server.processFresh environment index auth operation completed scopeId context).Ensures Onward
      (server.Commits auth operations) (Reports auth operation) store := by
  refine ensures_then (dependenciesCompleted_ensures recorded) fun ready later _ passed => ?_
  split
  · exact ensures_pure fun _ _ => .ok rfl
  · rename_i complete
    split
    · exact ensures_pure fun _ _ => .ok rfl
    · exact executeOperation_ensures distinct member authenticated (passed (by simpa using complete)) ‹_›

theorem processOperation_ensures (recorded : ∀ id ∈ completed, Completed auth.tenantId store.state id) :
    (server.processOperation environment index auth operation completed scopeId).Ensures Onward
      (server.Commits auth operations) (Answers auth operation store) store := by
  unfold processOperation
  split
  · exact ensures_pure fun _ _ => ⟨.error, fun _ _ _ reported => nomatch reported⟩
  · split
    · rename_i differs
      refine ensures_pure fun _ _ => ⟨.ok rfl, fun _ remembers => ?_⟩
      exact absurd remembers.authenticated differs
    · rename_i same
      have authenticated := not_not.mp same
      apply ensures_observe_bind Commits.refl
      intro looked move
      cases found : looked.operationResult auth.tenantId operation.operationId with
      | some _ =>
        refine (retryOperation_ensures authenticated found).mono (fun _ _ => id) fun result later answers =>
          ⟨answers.reports, fun recorded remembers => answers.repeats recorded (remembers.onward move)⟩
      | none =>
        have kept : ∀ id ∈ completed, Completed auth.tenantId looked.state id :=
          fun id held => move.completed (recorded id held)
        refine (processFresh_ensures distinct member authenticated kept).mono (fun _ _ => id)
          fun result later reports => ⟨reports, fun _ remembers => ?_⟩
        exact nomatch found.symm.trans (remembers.onward move).ledger

end SyncServer

end Aequora.Server
