import Aequora.Base.NumberedLog
import Aequora.Store.Commit

/-! The tables of the authoritative store always tell one history: every table is what replaying the
journal or the audit log gives. -/

namespace Aequora.Store

open Std Aequora.Base Aequora.Protocol CommitFailPoint AuthoritativeState Run

section
variable (change : RemoteChange)

def scopeKey : ScopeKey := (change.tenantId, change.scopeId)

def entityKey : EntityKey := (change.tenantId, change.entity)

def operationKey : OperationKey := (change.tenantId, change.operationId)

/-- The entity a change leaves behind. -/
def snapshotOf : EntitySnapshot where
  entity := change.entity
  tenantId := change.tenantId
  current :=
    { version := change.version
      payload := change.payload
      tombstone := change.changeKind == .tombstone }

/-- The result a change was acknowledged with. -/
def ackOf : OperationAck where
  operationId := change.operationId
  eventId := change.eventId
  lineage := change.lineage
  entityVersion := change.version
  sequence := change.sequence
  duplicate := false

end

def AuditRecord.operationKey (record : AuditRecord) : OperationKey :=
  (record.tenantId, record.operationId)

def AuthoritativeState.entityJournal (state : AuthoritativeState) (key : EntityKey) : List RemoteChange :=
  state.journal.filter fun change => decide (entityKey change = key)

/-- The audit record is the evidence of the change. -/
structure Evidences (change : RemoteChange) (record : AuditRecord) : Prop where
  operation : record.operationKey = operationKey change
  eventId : record.eventId = change.eventId
  entity : record.entity = change.entity
  version : record.entityVersion = change.version
  lineage : record.operationLineage.derived (.operation record.operationId) = change.lineage
  timestamp : record.timestamp = change.timestamp

/-- The inductive invariant: every table is a replay, and the journal is well numbered. -/
structure AuthoritativeState.Consistent (state : AuthoritativeState) : Prop where
  sequences : state.sequences = replay scopeKey RemoteChange.sequence state.journal
  entities : state.entities = replay entityKey snapshotOf state.journal
  ledger : state.ledger = replay operationKey ackOf state.journal
  lineages : state.operationLineages =
    replay AuditRecord.operationKey AuditRecord.operationLineage state.audit
  digests : state.operationDigests = replay AuditRecord.operationKey
    (fun record => (record.commandDigest, record.operationKind)) state.audit
  evidence : List.Forall₂ Evidences state.journal state.audit
  distinct : (state.journal.map operationKey).Nodup
  numbered : ∀ key, NumberedFrom RemoteChange.sequence 0 (state.scopeJournal key)
  versioned : ∀ key, NumberedFrom RemoteChange.version 0 (state.entityJournal key)

theorem AuthoritativeState.Consistent.initial : AuthoritativeState.default.Consistent where
  sequences := rfl
  entities := rfl
  ledger := rfl
  lineages := rfl
  digests := rfl
  evidence := .nil
  distinct := List.nodup_nil
  numbered _ := trivial
  versioned _ := trivial

section Consistent
variable {state : AuthoritativeState}

theorem AuthoritativeState.Consistent.nextSequence (valid : state.Consistent) (key : ScopeKey)
    (room : (state.scopeJournal key).length < u64Max) :
    state.nextSequence key = (state.scopeJournal key).length + 1 := by
  have recorded : state.sequences[key]? =
      (state.scopeJournal key).getLast?.map RemoteChange.sequence := by
    rw [valid.sequences, lookup_replay]
    rfl
  have counted := (valid.numbered key).getLast_getD
  rw [AuthoritativeState.nextSequence]
  rw [← recorded] at counted
  cases found : state.sequences[key]? with
  | none =>
    rw [found] at counted
    have empty : (state.scopeJournal key).length = 0 := by simpa using counted.symm
    rw [Option.elim_none, empty]
  | some sequence =>
    rw [found] at counted
    have total : sequence = (state.scopeJournal key).length := by simpa using counted
    rw [Option.elim_some, total, saturatingAdd_one_of_lt room]

section
variable (admitted : state.Admits commit) (entities : state.entities = replay entityKey snapshotOf state.journal)
include admitted entities

theorem AuthoritativeState.Admits.nextVersion
    (versioned : NumberedFrom RemoteChange.version 0 (state.entityJournal commit.entityKey)) :
    commit.nextVersion = (state.entityJournal commit.entityKey).length + 1 := by
  have counted := versioned.getLast_getD
  have current := admitted.current
  rw [currentVersion, entities, lookup_replay, Option.map_map] at current
  have recorded : ((state.entityJournal commit.entityKey).getLast?.map RemoteChange.version) =
      commit.expectedVersion := current
  rw [CommitOperation.nextVersion_eq admitted.valid, ← recorded, counted, Nat.zero_add]

theorem AuthoritativeState.Admits.versioned
    (versioned : ∀ key, NumberedFrom RemoteChange.version 0 (state.entityJournal key)) (key : EntityKey) :
    NumberedFrom RemoteChange.version 0 ((state.committed commit).entityJournal key) := by
  refine (versioned key).filter_snoc fun same => ?_
  subst same
  rw [Nat.zero_add]
  exact admitted.nextVersion entities (versioned commit.entityKey)

omit admitted in
theorem AuthoritativeState.committed_entities :
    (state.committed commit).entities = replay entityKey snapshotOf (state.committed commit).journal := by
  rw [committed, publish, replay_snoc, ← entities]
  rfl

end

theorem AuthoritativeState.Consistent.fresh (valid : state.Consistent)
    (admitted : state.Admits commit) : commit.operationKey ∉ state.journal.map operationKey := by
  intro member
  have absent := admitted.fresh
  rw [valid.ledger, lookup_replay, Option.map_eq_none_iff, List.getLast?_eq_none_iff,
    List.filter_eq_nil_iff] at absent
  obtain ⟨change, inside, same⟩ := List.mem_map.mp member
  exact absent change inside (by simpa using same)

theorem AuthoritativeState.Consistent.committed (valid : state.Consistent) (admitted : state.Admits commit)
    (room : (state.scopeJournal commit.scopeKey).length < u64Max) :
    (state.committed commit).Consistent where
  sequences := by
    rw [AuthoritativeState.committed, publish, replay_snoc, ← valid.sequences]
    rfl
  entities := committed_entities valid.entities
  ledger := by
    rw [AuthoritativeState.committed, publish, replay_snoc, ← valid.ledger]
    rfl
  lineages := by
    rw [AuthoritativeState.committed, publish, replay_snoc, ← valid.lineages]
    rfl
  digests := by
    rw [AuthoritativeState.committed, publish, replay_snoc, ← valid.digests]
    rfl
  evidence := List.rel_append valid.evidence (.cons ⟨rfl, rfl, rfl, rfl, rfl, rfl⟩ .nil)
  distinct := by
    have fresh := valid.fresh admitted
    simp only [AuthoritativeState.committed, publish, List.map_append, List.map_singleton]
    refine List.nodup_append.mpr ⟨valid.distinct, List.nodup_singleton _, ?_⟩
    intro _ member _ inside same
    rw [same, List.mem_singleton.mp inside] at member
    exact fresh member
  numbered key := by
    refine (valid.numbered key).filter_snoc fun same => ?_
    subst same
    rw [Nat.zero_add]
    exact valid.nextSequence commit.scopeKey room
  versioned := admitted.versioned valid.entities valid.versioned

end Consistent

section
variable (state : AuthoritativeState)

/-- Per scope the journal sequences are consecutive from one and the last one is recorded. -/
def AuthoritativeState.Sequenced : Prop :=
  ∀ key, (state.scopeJournal key).map RemoteChange.sequence =
      List.range' 1 (state.scopeJournal key).length ∧
    state.sequences[key]? =
      if state.scopeJournal key = [] then none else some (state.scopeJournal key).length

/-- Per entity the journal versions are consecutive from one and the stored entity is what the
last change left. -/
def AuthoritativeState.Versioned : Prop :=
  ∀ key, (state.entityJournal key).map RemoteChange.version =
      List.range' 1 (state.entityJournal key).length ∧
    state.entities[key]? = (state.entityJournal key).getLast?.map snapshotOf

/-- Ledger, digests, lineages, journal and audit hold the same operations, each exactly once, and
agree on every one of them. -/
structure AuthoritativeState.Recorded : Prop where
  distinct : (state.journal.map operationKey).Nodup
  audited : state.audit.map AuditRecord.operationKey = state.journal.map operationKey
  evidence : List.Forall₂ Evidences state.journal state.audit
  ledger : ∀ key, key ∈ state.ledger ↔ key ∈ state.journal.map operationKey
  digests : ∀ key, key ∈ state.operationDigests ↔ key ∈ state.journal.map operationKey
  lineages : ∀ key, key ∈ state.operationLineages ↔ key ∈ state.journal.map operationKey
  results : ∀ change ∈ state.journal, state.ledger[operationKey change]? = some (ackOf change)
  commands : ∀ record ∈ state.audit,
    state.operationDigests[record.operationKey]? = some (record.commandDigest, record.operationKind) ∧
      state.operationLineages[record.operationKey]? = some record.operationLineage

end

variable {state : AuthoritativeState}

theorem AuthoritativeState.Consistent.sequenced (valid : state.Consistent) : state.Sequenced := by
  intro key
  refine ⟨(valid.numbered key).map_eq, ?_⟩
  rw [valid.sequences, lookup_replay]
  change (state.scopeJournal key).getLast?.map RemoteChange.sequence = _
  cases found : (state.scopeJournal key).getLast? with
  | none => simp [List.getLast?_eq_none_iff.mp found]
  | some _ =>
    have occupied : state.scopeJournal key ≠ [] := by
      intro empty
      simp [empty] at found
    rw [Option.map_some, if_neg occupied, (valid.numbered key).last found, Nat.zero_add]

theorem AuthoritativeState.Consistent.inVersions (valid : state.Consistent) : state.Versioned := by
  intro key
  refine ⟨(valid.versioned key).map_eq, ?_⟩
  rw [valid.entities, lookup_replay]
  rfl

theorem AuthoritativeState.Consistent.recorded (valid : state.Consistent) : state.Recorded := by
  have audited : state.audit.map AuditRecord.operationKey = state.journal.map operationKey := by
    have evidence := valid.evidence
    generalize state.journal = journal at evidence ⊢
    generalize state.audit = audit at evidence ⊢
    induction evidence with
    | nil => rfl
    | cons first _ ih => rw [List.map_cons, List.map_cons, ih, first.operation]
  have auditDistinct : (state.audit.map AuditRecord.operationKey).Nodup := audited ▸ valid.distinct
  refine ⟨valid.distinct, audited, valid.evidence, ?_, ?_, ?_, ?_, ?_⟩
  · intro key
    rw [valid.ledger, mem_replay]
  · intro key
    rw [valid.digests, mem_replay, audited]
  · intro _
    rw [valid.lineages, mem_replay, audited]
  · intro _ member
    rw [valid.ledger]
    exact lookup_replay_of_nodup valid.distinct member
  · intro _ member
    rw [valid.digests, valid.lineages]
    exact ⟨lookup_replay_of_nodup auditDistinct member, lookup_replay_of_nodup auditDistinct member⟩

theorem AuthoritativeState.committed_scopeJournal (state : AuthoritativeState) (commit : CommitOperation) :
    (state.committed commit).scopeJournal commit.scopeKey =
      state.scopeJournal commit.scopeKey ++ [(state.staged commit).change] := by
  have matched : ((state.staged commit).change.tenantId, (state.staged commit).change.scopeId) =
      commit.scopeKey := rfl
  simp [scopeJournal, committed, publish, matched]

theorem Committed.consistent (ended : Committed store commit next result) (valid : store.state.Consistent)
    (room : ∀ key, (next.state.scopeJournal key).length ≤ u64Max) : next.state.Consistent := by
  have below : ((store.state.committed commit).scopeJournal commit.scopeKey).length ≤ u64Max →
      (store.state.scopeJournal commit.scopeKey).length < u64Max := by
    intro bound
    rw [committed_scopeJournal, List.length_append] at bound
    exact bound
  cases ended with
  | applied admitted => exact valid.committed admitted (below (room commit.scopeKey))
  | lost admitted => exact valid.committed admitted (below (room commit.scopeKey))
  | _ => exact valid

theorem Committed.error_unchanged (ended : Committed store commit next result) (reported : result = .error error)
    (early : error ≠ afterCommit.failure) : next.state = store.state := by
  cases ended with
  | applied => cases reported
  | lost => exact absurd (Except.error.inj reported).symm early
  | _ => rfl

theorem CommitFailPoint.failure_injective {left right : CommitFailPoint}
    (same : left.failure = right.failure) : left = right := by
  have names : left.name = right.name := by
    have messages := congrArg StoreError.message same
    simpa [failure, StoreError.transient] using messages
  revert names
  cases left <;> cases right <;> simp [name]

theorem Committed.lost_admitted (ended : Committed store commit next result)
    (reported : result = .error afterCommit.failure) :
    store.state.Admits commit ∧ next.state = store.state.committed commit := by
  cases ended with
  | invalid => cases congrArg StoreError.kind (Except.error.inj reported)
  | @retried _ =>
    unfold InMemoryAuthoritativeStore.retry at reported
    split at reported
    · cases congrArg StoreError.kind (Except.error.inj reported)
    · split at reported
      · cases congrArg StoreError.kind (Except.error.inj reported)
      · cases reported
  | versionChanged => cases reported
  | failed early => exact absurd (failure_injective (Except.error.inj reported)) early
  | applied => cases reported
  | lost admitted => exact ⟨admitted, rfl⟩

theorem AuthoritativeState.Admits.retry (admitted : state.Admits commit) {later : InMemoryAuthoritativeStore}
    (extended : (state.committed commit).Extends later.state) :
    later.commitOperation commit =
      (later, .ok (.duplicate (commit.ack (state.nextSequence commit.scopeKey)))) := by
  have recorded : (state.committed commit).ledger[commit.operationKey]? =
      some (commit.ack (state.nextSequence commit.scopeKey)) := by
    simp [committed, publish, staged]
  obtain ⟨kept, lineage, digest⟩ := extended.recorded _ _ recorded
  refine later.commitOperation_retry admitted.valid kept ?_ ?_
  · rw [lineage]
    simp [committed, publish]
  · rw [digest]
    simp [committed, publish]

theorem AuthoritativeState.Extends.scopeJournal_le {earlier later : AuthoritativeState}
    (extended : earlier.Extends later) (key : ScopeKey) :
    (earlier.scopeJournal key).length ≤ (later.scopeJournal key).length :=
  (extended.journal.filter _).length_le

theorem InMemoryAuthoritativeStore.consistent_throughout {actions : List StoreAction}
    (bounded : ∀ key, ((final step .default actions).state.scopeJournal
      key).length ≤ u64Max) :
    Throughout step (fun store => store.state.Consistent)
      .default actions := by
  have room : Permitted step
      (fun store action => ∀ key, ((store.step action).state.scopeJournal key).length ≤ u64Max)
      .default actions := by
    apply permitted_iff_cut.mpr
    intro _ action after split key
    rw [split, final_append, final_cons] at bounded
    exact ((run_extends _ after).scopeJournal_le key).trans (bounded key)
  refine Throughout.of_step Consistent.initial ?_ room
  intro store action valid within
  cases action with
  | injectCommitFailure => exact valid
  | commitOperation commit => exact (store.commitOperation_committed commit).consistent valid within
  | createSnapshot => exact { valid with }

/-- Over any calls and injected failures, as long as no scope outgrows its counter, every state
numbers its scopes and versions its entities consecutively and records each operation in all
tables alike. A commit that fails before its publication changes no table, and one whose result
was lost is answered as a duplicate with the acknowledgement it was committed with. -/
theorem InMemoryAuthoritativeStore.commit_atomic (actions : List StoreAction)
    (bounded : ∀ key, ((final step .default actions).state.scopeJournal
      key).length ≤ u64Max) :
    Throughout step
        (fun store => store.state.Sequenced ∧ store.state.Versioned ∧ store.state.Recorded)
        .default actions ∧
      ∀ before commit after, actions = before ++ .commitOperation commit :: after →
        ∀ error, ((final step .default before).commitOperation commit).2 =
            .error error →
          (error ≠ afterCommit.failure →
            ((final step .default before).commitOperation
                commit).1.state =
              (final step .default before).state) ∧
          (error = afterCommit.failure → ∀ middle rest, after = middle ++ rest →
            ((final step .default
                (before ++ .commitOperation commit :: middle)).commitOperation commit).2 =
              .ok (.duplicate (commit.ack
                ((final step .default before).state.nextSequence
                  commit.scopeKey)))) := by
  refine ⟨(consistent_throughout bounded).mono fun store valid => ⟨valid.sequenced, valid.inVersions, valid.recorded⟩, ?_⟩
  intro before commit _ _ _ reported
  have ended := (final step .default before).commitOperation_committed commit
  refine ⟨ended.error_unchanged reported, ?_⟩
  intro lost middle _ _
  subst lost
  obtain ⟨admitted, published⟩ := ended.lost_admitted reported
  rw [final_append, final_cons]
  refine congrArg Prod.snd (admitted.retry ?_)
  rw [← published]
  exact run_extends _ middle

/-- A first commit loses its result after publication, and its retry is answered as a duplicate. -/
theorem InMemoryAuthoritativeStore.commit_atomic_lost_result : ((final step .default
        ([.injectCommitFailure .afterCommit] ++ .commitOperation
          ⟨none, ⟨1⟩, ⟨2⟩, ⟨⟨3⟩, none⟩, ⟨4⟩, ⟨5⟩, 1, ⟨6⟩, ⟨7⟩, ⟨1, ⟨8⟩⟩, none, 1, [7], .upsert,
            ⟨0, 0, ⟨9⟩⟩, Vector.replicate 32 0⟩ :: [])).commitOperation
      ⟨none, ⟨1⟩, ⟨2⟩, ⟨⟨3⟩, none⟩, ⟨4⟩, ⟨5⟩, 1, ⟨6⟩, ⟨7⟩, ⟨1, ⟨8⟩⟩, none, 1, [7], .upsert,
        ⟨0, 0, ⟨9⟩⟩, Vector.replicate 32 0⟩).2 =
      .ok (.duplicate ⟨⟨1⟩, ⟨2⟩, ⟨⟨3⟩, some (.operation ⟨1⟩)⟩, 1, 1, false⟩) :=
  ((commit_atomic
      [.injectCommitFailure .afterCommit, .commitOperation
        ⟨none, ⟨1⟩, ⟨2⟩, ⟨⟨3⟩, none⟩, ⟨4⟩, ⟨5⟩, 1, ⟨6⟩, ⟨7⟩, ⟨1, ⟨8⟩⟩, none, 1, [7], .upsert,
          ⟨0, 0, ⟨9⟩⟩, Vector.replicate 32 0⟩]
      fun _ => (List.length_filter_le _ _).trans (by decide +kernel)).2
    [.injectCommitFailure .afterCommit] _ [] rfl _ rfl).2 rfl [] [] rfl

end Aequora.Store
