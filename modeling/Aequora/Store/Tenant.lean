import Aequora.Base.Access
import Aequora.Store.Commit

/-! What belongs to one tenant. Every call under a tenant is decided by that tenant's entries and
leaves those of the others as they were. -/

namespace Aequora.Store

open Std Aequora.Base Aequora.Protocol AuthoritativeState InMemoryAuthoritativeStore Function

/-- The entries of one tenant in the tables of the store. -/
@[ext] structure TenantView where
  entities : EntityRef → Option EntitySnapshot
  ledger : OperationId → Option OperationAck
  operationDigests : OperationId → Option (Vector UInt8 32 × UInt16)
  operationLineages : OperationId → Option LineageContext
  journal : List RemoteChange
  sequences : SyncScopeId → Option Sequence
  journalFloors : SyncScopeId → Option Sequence
  entityScopes : EntityRef → Option (Finset SyncScopeId)
  snapshots : SnapshotId → Option CapturedSnapshot

section
variable (state : AuthoritativeState) (tenant : TenantId)

def AuthoritativeState.view : TenantView where
  entities := slice state.entities tenant
  ledger := slice state.ledger tenant
  operationDigests := slice state.operationDigests tenant
  operationLineages := slice state.operationLineages tenant
  journal := state.journal.filter fun change => decide (change.tenantId = tenant)
  sequences := slice state.sequences tenant
  journalFloors := slice state.journalFloors tenant
  entityScopes := slice state.entityScopes tenant
  snapshots := slice state.snapshots tenant

def AuthoritativeState.auditOf : List AuditRecord :=
  state.audit.filter fun record => decide (record.tenantId = tenant)

end

/-- The stores agree on everything that belongs to the tenant, and on the failures to come. -/
structure SameTenant (tenant : TenantId) (left right : InMemoryAuthoritativeStore) : Prop where
  view : left.state.view tenant = right.state.view tenant
  failures : left.commitFailures = right.commitFailures

/-- No entry of any other tenant has changed. -/
def OthersKept (tenant : TenantId) (before after : InMemoryAuthoritativeStore) : Prop :=
  ∀ other, other ≠ tenant →
    after.state.view other = before.state.view other ∧ after.state.auditOf other = before.state.auditOf other

theorem OthersKept.refl (tenant : TenantId) (store : InMemoryAuthoritativeStore) : OthersKept tenant store store :=
  fun _ _ => ⟨rfl, rfl⟩

theorem OthersKept.trans (left : OthersKept tenant first second) (right : OthersKept tenant second third) :
    OthersKept tenant first third := by
  intro other different
  obtain ⟨view, audit⟩ := left other different
  obtain ⟨laterView, laterAudit⟩ := right other different
  exact ⟨laterView.trans view, laterAudit.trans audit⟩

section Congruence
variable {left right : AuthoritativeState}

theorem AuthoritativeState.scopeJournal_view (state : AuthoritativeState) (tenant : TenantId) (scope : SyncScopeId) :
    state.scopeJournal (tenant, scope) =
      (state.view tenant).journal.filter fun change => decide (change.scopeId = scope) := by
  rw [scopeJournal, view, List.filter_filter]
  refine List.filter_congr fun change _ => ?_
  rw [← Bool.decide_and]
  exact decide_eq_decide.mpr (by rw [Prod.mk.injEq, and_comm])

variable (same : left.view tenant = right.view tenant) (scope : SyncScopeId)
include same scope

theorem view_nextSequence : left.nextSequence (tenant, scope) = right.nextSequence (tenant, scope) :=
  congrArg (fun view => (view.sequences scope).elim 1 fun sequence => saturatingAdd sequence 1) same

theorem view_scopeEntities : left.scopeEntities tenant scope = right.scopeEntities tenant scope := by
  have entities (entity : EntityRef) :
      left.entities[(tenant, entity)]? = right.entities[(tenant, entity)]? :=
    congrArg (fun view => view.entities entity) same
  have scopes (entity : EntityRef) :
      left.entityScopes[(tenant, entity)]? = right.entityScopes[(tenant, entity)]? :=
    congrArg (fun view => view.entityScopes entity) same
  have listed (state : AuthoritativeState) : SortedByKey Prod.fst
      (state.entities.toList.filter fun entry => decide (entry.1.1 = tenant ∧
        scope ∈ state.entityScopes[(tenant, entry.1.2)]?.getD ∅)) :=
    ExtTreeMap.ordered_keys_toList.filter _
  rw [scopeEntities, scopeEntities]
  refine congrArg _ ((listed left).ext (listed right) fun entry => ?_)
  obtain ⟨⟨owner, _⟩, _⟩ := entry
  simp only [List.mem_filter, ExtTreeMap.mem_toList_iff_getElem?_eq_some, decide_eq_true_eq]
  by_cases own : owner = tenant
  · subst own
    rw [entities, scopes]
  · exact iff_of_false (fun kept => own kept.2.1) fun kept => own kept.2.1

theorem view_capture (snapshotId : SnapshotId) :
    left.capture tenant scope snapshotId = right.capture tenant scope snapshotId := by
  have sequence : left.sequences[(tenant, scope)]? = right.sequences[(tenant, scope)]? :=
    congrArg (fun view => view.sequences scope) same
  rw [capture, capture, view_scopeEntities same, sequence]

end Congruence

/-- A commit on the entries of its tenant. -/
def TenantView.committed (view : TenantView) (commit : CommitOperation) : TenantView :=
  let nextSequence := (view.sequences commit.scopeId).elim 1 fun sequence => saturatingAdd sequence 1
  { view with
    entities := update view.entities commit.entity (some commit.entitySnapshot)
    entityScopes := update view.entityScopes commit.entity
      (some (insert commit.scopeId ((view.entityScopes commit.entity).getD ∅)))
    sequences := update view.sequences commit.scopeId (some nextSequence)
    journal := view.journal ++ [commit.change nextSequence]
    operationLineages := update view.operationLineages commit.operationId
      (some commit.operationLineage)
    operationDigests := update view.operationDigests commit.operationId
      (some (commit.commandDigest, commit.operationKind))
    ledger := update view.ledger commit.operationId (some (commit.ack nextSequence)) }

section Commit
variable (state : AuthoritativeState) (commit : CommitOperation)

theorem AuthoritativeState.view_committed :
    (state.committed commit).view commit.tenantId = (state.view commit.tenantId).committed commit := by
  ext1
  · exact slice_insert_self ..
  · exact slice_insert_self ..
  · exact slice_insert_self ..
  · exact slice_insert_self ..
  · have added : ((state.staged commit).change.tenantId = commit.tenantId) = True := eq_self _
    simp only [view, committed, publish, List.filter_append, List.filter_singleton, added, decide_true, cond_true]
    rfl
  · exact slice_insert_self ..
  · rfl
  · exact slice_insert_self ..
  · rfl

theorem AuthoritativeState.view_committed_other (different : other ≠ commit.tenantId) :
    (state.committed commit).view other = state.view other ∧
      (state.committed commit).auditOf other = state.auditOf other := by
  have foreign : ((state.staged commit).change.tenantId = other) = False :=
    eq_false fun same => different same.symm
  have unaudited : ((state.staged commit).audit.tenantId = other) = False :=
    eq_false fun same => different same.symm
  constructor
  · ext1
    · exact slice_insert_other _ different ..
    · exact slice_insert_other _ different ..
    · exact slice_insert_other _ different ..
    · exact slice_insert_other _ different ..
    · simp only [view, committed, publish,
        List.filter_append, List.filter_singleton, foreign, decide_false, cond_false, List.append_nil]
    · exact slice_insert_other _ different ..
    · rfl
    · exact slice_insert_other _ different ..
    · rfl
  · simp only [auditOf, committed, publish,
      List.filter_append, List.filter_singleton, unaudited, decide_false, cond_false, List.append_nil]

end Commit

/-- A call under the tenant: agreeing stores answer it alike and agree afterwards, and no entry of
another tenant changes. -/
structure TenantAccess (tenant : TenantId) (Answer : Type)
    (act : InMemoryAuthoritativeStore → InMemoryAuthoritativeStore × Answer) : Prop where
  alike : Program.Alike (SameTenant tenant) Answer act
  others : Program.Framed (OthersKept tenant) Answer act

namespace TenantAccess
theorem look (read : TenantView → Answer) :
    TenantAccess tenant Answer fun store => (store, read (store.state.view tenant)) where
  alike _ _ same := ⟨congrArg read same.view, same⟩
  others := OthersKept.refl tenant

theorem readChangesAfter (scope : SyncScopeId) (sequence : Sequence) (limit maxPayloadBytes : Nat) :
    TenantAccess tenant ChangePage fun store =>
      (store, store.readChangesAfter tenant scope sequence limit maxPayloadBytes) where
  alike left right same := by
    refine ⟨?_, same⟩
    have journal : left.state.scopeJournal (tenant, scope) = right.state.scopeJournal (tenant, scope) := by
      rw [scopeJournal_view, scopeJournal_view, same.view]
    simp only [InMemoryAuthoritativeStore.readChangesAfter, journal]
  others := OthersKept.refl tenant

theorem readSnapshot (snapshotId : SnapshotId) (offset maxEntities maxPayloadBytes : Nat) :
    TenantAccess tenant (Except StoreError SnapshotPage) fun store =>
      (store, store.readSnapshot tenant snapshotId offset maxEntities maxPayloadBytes) where
  alike left right same := by
    refine ⟨?_, same⟩
    have found : left.state.snapshots[(tenant, snapshotId)]? = right.state.snapshots[(tenant, snapshotId)]? :=
      congrArg (fun view => view.snapshots snapshotId) same.view
    simp only [InMemoryAuthoritativeStore.readSnapshot, found]
  others := OthersKept.refl tenant

theorem createSnapshotInTimeline (scope : SyncScopeId) (timeline : AuthorityTimeline) (snapshotId : SnapshotId) :
    TenantAccess tenant SnapshotDescriptor fun store =>
      store.createSnapshotInTimeline tenant scope timeline snapshotId where
  alike left right same := by
    have captured := view_capture same.view scope snapshotId
    have view (state : AuthoritativeState) (snapshot : CapturedSnapshot) :
        { state with snapshots := state.snapshots.insert (tenant, snapshotId) snapshot }.view tenant =
          { state.view tenant with
            snapshots := update (state.view tenant).snapshots snapshotId (some snapshot) } :=
      TenantView.ext rfl rfl rfl rfl rfl rfl rfl rfl (slice_insert_self ..)
    refine ⟨?_, ?_, same.failures⟩
    · simp only [InMemoryAuthoritativeStore.createSnapshotInTimeline, createSnapshot, captured]
    · simp only [InMemoryAuthoritativeStore.createSnapshotInTimeline, createSnapshot, view, captured, same.view]
  others store other different :=
    ⟨TenantView.ext rfl rfl rfl rfl rfl rfl rfl rfl (slice_insert_other _ different ..), rfl⟩

theorem commitOperation (own : commit.tenantId = tenant) :
    TenantAccess tenant (Except StoreError CommitOutcome) fun store => store.commitOperation commit where
  alike left right same := by
    subst own
    have ledger : left.state.ledger[commit.operationKey]? = right.state.ledger[commit.operationKey]? :=
      congrArg (fun view => view.ledger commit.operationId) same.view
    have lineage : left.state.operationLineages[commit.operationKey]? =
        right.state.operationLineages[commit.operationKey]? :=
      congrArg (fun view => view.operationLineages commit.operationId) same.view
    have digest : left.state.operationDigests[commit.operationKey]? =
        right.state.operationDigests[commit.operationKey]? :=
      congrArg (fun view => view.operationDigests commit.operationId) same.view
    have current : left.state.currentVersion commit.entityKey = right.state.currentVersion commit.entityKey :=
      congrArg (fun view => (view.entities commit.entity).map fun snapshot => snapshot.current.version)
        same.view
    have committed : SameTenant commit.tenantId
        ⟨left.state.committed commit, right.commitFailures.tail⟩
        ⟨right.state.committed commit, right.commitFailures.tail⟩ :=
      ⟨by rw [view_committed, view_committed, same.view], rfl⟩
    have popped : SameTenant commit.tenantId ⟨left.state, right.commitFailures.tail⟩
        ⟨right.state, right.commitFailures.tail⟩ :=
      ⟨same.view, rfl⟩
    have ack : (left.state.staged commit).ack = (right.state.staged commit).ack :=
      congrArg commit.ack (view_nextSequence same.view commit.scopeId)
    simp only [InMemoryAuthoritativeStore.commitOperation]
    split
    · exact ⟨rfl, same⟩
    · rw [ledger]
      split
      · refine ⟨?_, same⟩
        simp only [retry, lineage, digest]
      · rw [current]
        split
        · exact ⟨rfl, same⟩
        · simp only [commitNew, stage_eq, same.failures]
          cases right.commitFailures.head? with
          | none => exact ⟨congrArg (Except.ok ∘ CommitOutcome.applied) ack, committed⟩
          | some point =>
            cases point with
            | afterCommit => exact ⟨rfl, committed⟩
            | _ => exact ⟨rfl, popped⟩
  others store other different := by
    have ended := store.commitOperation_committed commit
    generalize (store.commitOperation commit).1 = next at ended ⊢
    generalize (store.commitOperation commit).2 = result at ended
    subst own
    cases ended with
    | applied admitted => exact store.state.view_committed_other commit different
    | lost _ => exact store.state.view_committed_other commit different
    | _ => exact ⟨rfl, rfl⟩

end TenantAccess

end Aequora.Store
