import Aequora.Store.Atomicity

/-! Snapshots against the journal. A snapshot of a scope takes every entity the scope ever touched
with its current content; replaying the scope's own changes gives what the scope wrote last. -/

namespace Aequora.Store

open Std Aequora.Base Aequora.Protocol ExtTreeMap Option AuthoritativeState Run

section
variable (state : AuthoritativeState)

/-- What a client holds that pulled every change of the scope up to the boundary. -/
def AuthoritativeState.pulled (key : ScopeKey) (boundary : Sequence) :
    ExtTreeMap EntityRef SnapshotEntity :=
  replay RemoteChange.entity RemoteChange.snapshotEntity
    ((state.scopeJournal key).filter fun change => decide (change.sequence ≤ boundary))

def bootstrapped (entities : List SnapshotEntity) : ExtTreeMap EntityRef SnapshotEntity :=
  replay SnapshotEntity.entity id entities

/-- Every entity the scope touched was last written through it. -/
def AuthoritativeState.WrittenThrough (key : ScopeKey) : Prop :=
  ∀ change ∈ state.scopeJournal key, ∀ last ∈ (state.entityJournal (entityKey change)).getLast?,
    last.scopeId = key.2

/-- The journal explains the entities, their scopes and the recorded sequences, however long it
grows. -/
structure AuthoritativeState.Journalled : Prop where
  entities : state.entities = replay entityKey snapshotOf state.journal
  versioned : ∀ key, NumberedFrom RemoteChange.version 0 (state.entityJournal key)
  scopes : ∀ key scope, scope ∈ state.entityScopes[key]?.getD ∅ ↔
    ∃ change ∈ state.journal, entityKey change = key ∧ change.scopeId = scope
  sequences : ∀ change ∈ state.journal, change.sequence ≤ state.sequences[scopeKey change]?.getD 0
  bounded : ∀ key : ScopeKey, state.sequences[key]?.getD 0 ≤ u64Max

end

theorem AuthoritativeState.Journalled.initial : AuthoritativeState.default.Journalled where
  entities := rfl
  versioned _ := trivial
  scopes _ _ := by simp [AuthoritativeState.default]
  sequences _ member := nomatch member
  bounded _ := by simp [AuthoritativeState.default]

section Journalled
variable {state : AuthoritativeState}

theorem AuthoritativeState.Journalled.nextSequence (valid : state.Journalled) (key : ScopeKey) :
    state.sequences[key]?.getD 0 ≤ state.nextSequence key ∧ state.nextSequence key ≤ u64Max := by
  have bound := valid.bounded key
  rw [AuthoritativeState.nextSequence]
  cases found : state.sequences[key]? with
  | none => exact ⟨Nat.zero_le _, by decide⟩
  | some sequence =>
    rw [found, getD_some] at bound
    refine ⟨?_, min_le_right _ _⟩
    exact Nat.le_min.mpr ⟨Nat.le_succ sequence, bound⟩

theorem AuthoritativeState.Journalled.committed (valid : state.Journalled)
    (admitted : state.Admits commit) : (state.committed commit).Journalled where
  entities := committed_entities valid.entities
  versioned := admitted.versioned valid.entities valid.versioned
  scopes key scope := by
    simp only [AuthoritativeState.committed, publish, lookup_insert,
      List.mem_append, List.mem_singleton, or_and_right, exists_or, exists_eq_left]
    rw [← valid.scopes key scope]
    by_cases same : commit.entityKey = key
    · subst same
      rw [if_pos rfl, getD_some, Finset.mem_insert, or_comm]
      exact or_congr_right ⟨fun written => ⟨rfl, written.symm⟩, fun written => written.2.symm⟩
    · rw [if_neg same]
      exact (or_iff_left fun written => same written.1).symm
  sequences change member := by
    simp only [AuthoritativeState.committed, publish, lookup_insert]
    rcases List.mem_append.mp member with earlier | added
    · have recorded := valid.sequences change earlier
      by_cases same : commit.scopeKey = scopeKey change
      · rw [if_pos same]
        rw [← same] at recorded
        exact Nat.le_trans recorded (valid.nextSequence commit.scopeKey).1
      · rw [if_neg same]
        exact recorded
    · cases List.mem_singleton.mp added
      have same : commit.scopeKey = scopeKey (state.staged commit).change := rfl
      rw [if_pos same]
      exact Nat.le_refl _
  bounded key := by
    simp only [AuthoritativeState.committed, publish, lookup_insert]
    by_cases same : commit.scopeKey = key
    · rw [if_pos same]
      exact (valid.nextSequence commit.scopeKey).2
    · rw [if_neg same]
      exact valid.bounded key

theorem Committed.journalled (ended : Committed store commit next result)
    (valid : store.state.Journalled) : next.state.Journalled := by
  cases ended with
  | applied admitted => exact valid.committed admitted
  | lost admitted => exact valid.committed admitted
  | _ => exact valid

theorem InMemoryAuthoritativeStore.journalled_of_run (actions : List StoreAction) :
    (final step .default actions).state.Journalled := by
  have throughout : Throughout step
      (fun store => store.state.Journalled) .default actions := by
    refine .of_invariant Journalled.initial fun store action valid => ?_
    cases action with
    | injectCommitFailure => exact valid
    | commitOperation commit => exact (store.commitOperation_committed commit).journalled valid
    | createSnapshot => exact { valid with }
  exact throughout.final

end Journalled

section Captured
variable {state : AuthoritativeState}

theorem AuthoritativeState.scopeJournal_filter (state : AuthoritativeState) (tenant : TenantId)
    (scope : SyncScopeId) (entity : EntityRef) :
    ((state.scopeJournal (tenant, scope)).filter fun change => decide (change.entity = entity)) =
      (state.entityJournal (tenant, entity)).filter fun change => decide (change.scopeId = scope) := by
  rw [scopeJournal, entityJournal, List.filter_filter, List.filter_filter]
  refine List.filter_congr fun change _ => ?_
  simp only [entityKey, Prod.mk.injEq, ← Bool.decide_and]
  exact decide_eq_decide.mpr (by tauto)

section
variable (valid : state.Journalled)
include valid

namespace AuthoritativeState.Journalled

theorem lookup (key : EntityKey) :
    state.entities[key]? = (state.entityJournal key).getLast?.map snapshotOf := by
  rw [valid.entities, lookup_replay]
  rfl

theorem carried {key : EntityKey} (found : state.entities[key]? = some snapshot) :
    snapshot.entity = key.2 := by
  rw [valid.lookup] at found
  obtain ⟨_, final, rfl⟩ := map_eq_some_iff.mp found
  have same := of_decide_eq_true (List.mem_filter.mp (List.mem_of_getLast? final)).2
  exact congrArg Prod.snd same

theorem mem_scopeEntities {item : SnapshotEntity} : item ∈ state.scopeEntities tenant scope ↔
      (∃ last ∈ (state.entityJournal (tenant, item.entity)).getLast?, last.snapshotEntity = item) ∧
        ∃ change ∈ state.scopeJournal (tenant, scope), change.entity = item.entity := by
  have touched (entity : EntityRef) : scope ∈ state.entityScopes[(tenant, entity)]?.getD ∅ ↔
      ∃ change ∈ state.scopeJournal (tenant, scope), change.entity = entity := by
    rw [valid.scopes]
    simp only [scopeJournal, entityKey, List.mem_filter, decide_eq_true_eq, Prod.mk.injEq]
    constructor
    · rintro ⟨change, member, ⟨sameTenant, sameEntity⟩, sameScope⟩
      exact ⟨change, ⟨member, sameTenant, sameScope⟩, sameEntity⟩
    · rintro ⟨change, ⟨member, sameTenant, sameScope⟩, sameEntity⟩
      exact ⟨change, member, ⟨sameTenant, sameEntity⟩, sameScope⟩
  rw [scopeEntities, List.mem_map]
  constructor
  · rintro ⟨⟨⟨_, entity⟩, snapshot⟩, member, rfl⟩
    obtain ⟨stored, kept⟩ := List.mem_filter.mp member
    obtain ⟨rfl, inScope⟩ := of_decide_eq_true kept
    have found := mem_toList_iff_getElem?_eq_some.mp stored
    have same : snapshot.snapshotEntity.entity = entity := valid.carried found
    rw [same]
    refine ⟨?_, (touched entity).mp inScope⟩
    rw [valid.lookup] at found
    obtain ⟨last, final, rfl⟩ := map_eq_some_iff.mp found
    exact ⟨last, final, rfl⟩
  · rintro ⟨⟨last, final, same⟩, inScope⟩
    refine ⟨((tenant, item.entity), snapshotOf last), List.mem_filter.mpr ⟨?_, ?_⟩, same⟩
    · apply mem_toList_iff_getElem?_eq_some.mpr
      rw [valid.lookup, final]
      rfl
    · exact decide_eq_true ⟨rfl, (touched item.entity).mpr inScope⟩

theorem scopeEntities_nodup : ((state.scopeEntities tenant scope).map SnapshotEntity.entity).Nodup := by
  rw [scopeEntities, List.map_map]
  apply List.pairwise_map.mpr
  refine ((distinct_keys_toList.filter _).imp_of_mem ?_)
  rintro ⟨⟨_, entity⟩, snapshot⟩ ⟨⟨_, second⟩, copy⟩ left right different same
  obtain ⟨leftStored, leftKept⟩ := List.mem_filter.mp left
  obtain ⟨rightStored, rightKept⟩ := List.mem_filter.mp right
  obtain ⟨rfl, -⟩ := of_decide_eq_true leftKept
  obtain ⟨rfl, -⟩ := of_decide_eq_true rightKept
  have first : snapshot.entity = entity :=
    valid.carried (mem_toList_iff_getElem?_eq_some.mp leftStored)
  have last : copy.entity = second :=
    valid.carried (mem_toList_iff_getElem?_eq_some.mp rightStored)
  have equal : snapshot.entity = copy.entity := same
  rw [first, last] at equal
  exact different (by rw [equal]; exact ReflOrd.compare_self)

theorem pulled_capture (snapshotId : SnapshotId) :
    state.pulled (tenant, scope) (state.capture tenant scope snapshotId).descriptor.cursor.sequence =
      replay RemoteChange.entity RemoteChange.snapshotEntity (state.scopeJournal (tenant, scope)) := by
  rw [pulled, List.filter_eq_self.mpr]
  intro change member
  obtain ⟨journalled, same⟩ := List.mem_filter.mp member
  have recorded := valid.sequences change journalled
  rw [show scopeKey change = (tenant, scope) from of_decide_eq_true same] at recorded
  exact decide_eq_true recorded

end AuthoritativeState.Journalled

end

theorem pulled_carried (changes : List RemoteChange) (entity : EntityRef) (item : SnapshotEntity)
    (found : (replay RemoteChange.entity RemoteChange.snapshotEntity changes)[entity]? = some item) :
    item.entity = entity := by
  rw [lookup_replay] at found
  obtain ⟨_, final, rfl⟩ := map_eq_some_iff.mp found
  exact of_decide_eq_true (List.mem_filter.mp (List.mem_of_getLast? final)).2

namespace AuthoritativeState

/-- Replaying a scope lists each entity as the scope's last change of it left it. -/
theorem mem_listing_replay (state : AuthoritativeState) :
    item ∈ listing (replay RemoteChange.entity RemoteChange.snapshotEntity
        (state.scopeJournal (tenant, scope))) ↔
      ∃ last ∈ ((state.entityJournal (tenant, item.entity)).filter
        fun change => decide (change.scopeId = scope)).getLast?, last.snapshotEntity = item := by
  rw [mem_listing (pulled_carried _), lookup_replay, map_eq_some_iff, scopeJournal_filter]
  rfl

theorem Journalled.writtenThrough_of_captured (valid : state.Journalled) (equal : (state.capture tenant scope snapshotId).entities =
      listing (replay RemoteChange.entity RemoteChange.snapshotEntity
        (state.scopeJournal (tenant, scope)))) : state.WrittenThrough (tenant, scope) := by
  intro change member last final
  obtain ⟨sameTenant, _⟩ := Prod.mk.inj (of_decide_eq_true (List.mem_filter.mp member).2)
  have key : entityKey change = (tenant, change.entity) := congrArg (·, change.entity) sameTenant
  rw [key] at final
  have journalled := (List.mem_filter.mp (List.mem_of_getLast? final)).2
  have entity : last.snapshotEntity.entity = change.entity :=
    congrArg Prod.snd (of_decide_eq_true journalled)
  -- The entity is captured as it is now, so the scope's own last change has the same version.
  have captured : last.snapshotEntity ∈ (state.capture tenant scope snapshotId).entities := by
    apply mem_sortByKey.mpr
    rw [valid.mem_scopeEntities, entity]
    exact ⟨⟨last, final, rfl⟩, change, member, rfl⟩
  rw [equal, mem_listing_replay, entity] at captured
  obtain ⟨written, own, same⟩ := captured
  obtain ⟨journal, through⟩ := List.mem_filter.mp (List.mem_of_getLast? own)
  have version : written.version = last.version := congrArg SnapshotEntity.version same
  have identical := (valid.versioned (tenant, change.entity)).injective journal
    (List.mem_of_getLast? final) version
  rw [← identical]
  exact of_decide_eq_true through

/-- The last change of a touched entity is the last one the scope made to it. -/
theorem WrittenThrough.last_own (through : state.WrittenThrough (tenant, scope))
    (final : last ∈ (state.entityJournal (tenant, entity)).getLast?)
    (member : change ∈ state.scopeJournal (tenant, scope)) (touched : change.entity = entity) :
    last ∈ ((state.entityJournal (tenant, entity)).filter
      fun change => decide (change.scopeId = scope)).getLast? := by
  obtain ⟨sameTenant, -⟩ := Prod.mk.inj (of_decide_eq_true (List.mem_filter.mp member).2)
  have key : entityKey change = (tenant, entity) := Prod.ext sameTenant touched
  have written := through change member last (key ▸ final)
  obtain ⟨_, shape⟩ := List.getLast?_eq_some_iff.mp final
  rw [shape, List.filter_append]
  simp [written]

theorem Journalled.captured_iff (valid : state.Journalled) (snapshotId : SnapshotId) :
    (state.capture tenant scope snapshotId).entities =
        listing (replay RemoteChange.entity RemoteChange.snapshotEntity
          (state.scopeJournal (tenant, scope))) ↔ state.WrittenThrough (tenant, scope) := by
  refine ⟨valid.writtenThrough_of_captured, fun through => ?_⟩
  refine (sortedByKey_sortByKey valid.scopeEntities_nodup).ext
    (sortedByKey_listing (pulled_carried _)) fun item => ?_
  rw [mem_sortByKey, valid.mem_scopeEntities, mem_listing_replay]
  constructor
  · rintro ⟨⟨last, final, same⟩, _, member, entity⟩
    exact ⟨last, through.last_own final member entity, same⟩
  · rintro ⟨written, own, same⟩
    obtain ⟨journal, inScope⟩ := List.mem_filter.mp (List.mem_of_getLast? own)
    obtain ⟨member, sameKey⟩ := List.mem_filter.mp journal
    obtain ⟨sameTenant, sameEntity⟩ := Prod.mk.inj (of_decide_eq_true sameKey)
    have inJournal : written ∈ state.scopeJournal (tenant, scope) :=
      List.mem_filter.mpr ⟨member, decide_eq_true (Prod.ext sameTenant (of_decide_eq_true inScope))⟩
    refine ⟨?_, written, inJournal, sameEntity⟩
    cases final : (state.entityJournal (tenant, item.entity)).getLast? with
    | none =>
      rw [List.getLast?_eq_none_iff.mp final] at journal
      cases journal
    | some _ =>
      have own' := through.last_own final inJournal sameEntity
      rw [mem_def, mem_def.mp own] at own'
      cases Option.some.inj own'
      exact ⟨written, rfl, same⟩

end AuthoritativeState

end Captured

/-- In every state the store can reach, a snapshot of a scope lists what replaying the scope's
journal up to the snapshot's cursor gives, and a bootstrapped client holds what a pulling one holds,
exactly when every entity the scope touched was last written through it. -/
theorem InMemoryAuthoritativeStore.snapshot_replays_iff (actions : List StoreAction) (tenant : TenantId)
    (scope : SyncScopeId) (snapshotId : SnapshotId) {store : InMemoryAuthoritativeStore}
    (reached : final step .default actions = store)
    {captured : CapturedSnapshot}
    (created : (store.createSnapshot tenant scope snapshotId).1.state.snapshots[(tenant, snapshotId)]? =
      some captured) :
    (captured.entities =
        listing (store.state.pulled (tenant, scope) captured.descriptor.cursor.sequence) ↔
      store.state.WrittenThrough (tenant, scope)) ∧
    (bootstrapped captured.entities =
        store.state.pulled (tenant, scope) captured.descriptor.cursor.sequence ↔
      store.state.WrittenThrough (tenant, scope)) := by
  have valid : store.state.Journalled := by
    rw [← reached]
    exact journalled_of_run actions
  have same : store.state.capture tenant scope snapshotId = captured := by
    simpa [createSnapshot, lookup_insert] using created
  subst same
  have sorted : SortedByKey SnapshotEntity.entity (store.state.capture tenant scope snapshotId).entities :=
    sortedByKey_sortByKey valid.scopeEntities_nodup
  rw [valid.pulled_capture, bootstrapped, replay_eq_iff sorted (pulled_carried _)]
  exact ⟨valid.captured_iff snapshotId, valid.captured_iff snapshotId⟩

/-- A creation of one entity through the given scope, or its next version. -/
def exampleWrite (operation : Nat) (scope : SyncScopeId) (expected : Option EntityVersion)
    (next : EntityVersion) : StoreAction :=
  .commitOperation
    { authority := none
      operationId := ⟨operation⟩
      eventId := ⟨operation⟩
      operationLineage := ⟨⟨operation⟩, none⟩
      actorId := ⟨1⟩
      deviceId := ⟨1⟩
      operationKind := 1
      tenantId := ⟨1⟩
      scopeId := scope
      entity := ⟨1, ⟨1⟩⟩
      expectedVersion := expected
      nextVersion := next
      payload := [UInt8.ofNat next]
      changeKind := .upsert
      timestamp := ⟨0, 0, ⟨1⟩⟩
      commandDigest := Vector.replicate 32 0 }

/-- The snapshot of the scope that the store keeps when it is created after the given calls. -/
def exampleCapture (actions : List StoreAction) (scope : SyncScopeId) : Option CapturedSnapshot :=
  ((final InMemoryAuthoritativeStore.step .default actions).createSnapshot ⟨1⟩ scope
    ⟨1⟩).1.state.snapshots[((⟨1⟩, ⟨1⟩) : SnapshotKey)]?

/-- Two versions written through one scope are captured as its journal replays. -/
theorem InMemoryAuthoritativeStore.snapshot_replays_one_scope :
    ∃ captured, exampleCapture [exampleWrite 1 ⟨1⟩ none 1, exampleWrite 2 ⟨1⟩ (some 1) 2] ⟨1⟩ =
        some captured ∧
      bootstrapped captured.entities = (final step .default
        [exampleWrite 1 ⟨1⟩ none 1, exampleWrite 2 ⟨1⟩ (some 1) 2]).state.pulled (⟨1⟩, ⟨1⟩)
          captured.descriptor.cursor.sequence := by
  have through : (final step .default
      [exampleWrite 1 ⟨1⟩ none 1, exampleWrite 2 ⟨1⟩ (some 1) 2]).state.WrittenThrough (⟨1⟩, ⟨1⟩) := by
    unfold WrittenThrough
    decide +kernel
  refine ⟨_, getElem?_insert_self, ?_⟩
  exact (snapshot_replays_iff [exampleWrite 1 ⟨1⟩ none 1, exampleWrite 2 ⟨1⟩ (some 1) 2] ⟨1⟩ ⟨1⟩ ⟨1⟩ rfl
    getElem?_insert_self).2.mpr through

/-- An entity written through one scope and then through another is captured for the first scope
with the content of the second, which no change of the first scope carries. -/
theorem InMemoryAuthoritativeStore.snapshot_holds_foreign_write :
    exampleCapture [exampleWrite 1 ⟨1⟩ none 1, exampleWrite 2 ⟨2⟩ (some 1) 2] ⟨1⟩ =
        some
          { descriptor := { snapshotId := ⟨1⟩, cursor := .legacy ⟨1⟩ 1 }
            entities := [⟨⟨1, ⟨1⟩⟩, 2, [2], false⟩] } ∧
      listing ((final step .default
          [exampleWrite 1 ⟨1⟩ none 1, exampleWrite 2 ⟨2⟩ (some 1) 2]).state.pulled (⟨1⟩, ⟨1⟩) 1) =
        [⟨⟨1, ⟨1⟩⟩, 1, [1], false⟩] := by
  decide +kernel

end Aequora.Store
