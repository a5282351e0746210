import Aequora.Store.Authoritative

/-! What one commit can do to the store, said once, and what no commit ever undoes. -/

namespace Aequora.Store

open Std Aequora.Base Aequora.Protocol CommitOperation

namespace AuthoritativeState

section
variable (state : AuthoritativeState) (commit : CommitOperation)

/-- The writes of a commit that reaches its publication. -/
def staged : StagedCommit where
  nextSequence := state.nextSequence commit.scopeKey
  entitySnapshot := commit.entitySnapshot
  change := commit.change (state.nextSequence commit.scopeKey)
  ack := commit.ack (state.nextSequence commit.scopeKey)
  audit := commit.auditRecord state.audit.length

def committed : AuthoritativeState :=
  state.publish commit (state.staged commit)

/-- Staging only fails at the selected phase. -/
theorem stage_eq (failpoint : Option CommitFailPoint) :
    state.stage commit failpoint =
      match failpoint with
      | none => .ok (state.staged commit)
      | some .afterCommit => .ok (state.staged commit)
      | some point => .error point.failure := by
  cases failpoint with
  | none => rfl
  | some point => cases point <;> rfl

/-- A commit that may proceed to its publication. -/
structure Admits : Prop where
  valid : commit.hasValidVersionTransition = true
  fresh : state.ledger[commit.operationKey]? = none
  current : state.currentVersion commit.entityKey = commit.expectedVersion

end

end AuthoritativeState

/-- One way `commit_operation` can return. -/
inductive Committed (store : InMemoryAuthoritativeStore) (commit : CommitOperation) :
    InMemoryAuthoritativeStore → Except StoreError CommitOutcome → Prop where
  | invalid (refused : commit.hasValidVersionTransition = false) :
      Committed store commit store
        (.error (.permanent "authoritative entity version must advance by exactly one"))
  | retried
      (recorded : store.state.ledger[commit.operationKey]? = some previous) :
      Committed store commit store (store.retry commit previous)
  | versionChanged (fresh : store.state.ledger[commit.operationKey]? = none)
      (differs : store.state.currentVersion commit.entityKey ≠ commit.expectedVersion) :
      Committed store commit store
        (.ok (.versionChanged (store.state.currentVersion commit.entityKey)))
  | failed {point : CommitFailPoint} (early : point ≠ .afterCommit) :
      Committed store commit { store with commitFailures := store.commitFailures.tail }
        (.error point.failure)
  | applied (admitted : store.state.Admits commit) :
      Committed store commit
        { state := store.state.committed commit, commitFailures := store.commitFailures.tail }
        (.ok (.applied (commit.ack (store.state.nextSequence commit.scopeKey))))
  | lost (admitted : store.state.Admits commit) :
      Committed store commit
        { state := store.state.committed commit, commitFailures := store.commitFailures.tail }
        (.error CommitFailPoint.afterCommit.failure)

variable {store : InMemoryAuthoritativeStore} {commit : CommitOperation}

theorem InMemoryAuthoritativeStore.commitNew_committed (admitted : store.state.Admits commit) :
    Committed store commit (store.commitNew commit).1 (store.commitNew commit).2 := by
  simp only [commitNew, AuthoritativeState.stage_eq]
  cases store.commitFailures.head? with
  | none => exact .applied admitted
  | some point =>
    cases point with
    | afterCommit => exact .lost admitted
    | _ => exact .failed nofun

theorem InMemoryAuthoritativeStore.commitOperation_committed (store : InMemoryAuthoritativeStore)
    (commit : CommitOperation) :
    Committed store commit (store.commitOperation commit).1 (store.commitOperation commit).2 := by
  unfold commitOperation
  cases valid : commit.hasValidVersionTransition with
  | false => exact .invalid valid
  | true =>
    cases fresh : store.state.ledger[commit.operationKey]? with
    | some _ => exact .retried fresh
    | none =>
      by_cases current : store.state.currentVersion commit.entityKey = commit.expectedVersion
      · simpa [current] using commitNew_committed ⟨valid, fresh, current⟩
      · simpa [current] using Committed.versionChanged fresh current

theorem CommitOperation.nextVersion_eq (valid : commit.hasValidVersionTransition = true) :
    commit.nextVersion = commit.expectedVersion.getD 0 + 1 := by
  unfold hasValidVersionTransition at valid
  cases expected : commit.expectedVersion with
  | none => simpa [expected, EntityVersion.initial] using valid
  | some version =>
    cases next : checkedAdd version 1 with
    | none => simp [expected, next] at valid
    | some _ =>
      obtain ⟨rfl, -⟩ := checkedAdd_eq_some.mp next
      have moved : version + 1 = commit.nextVersion := by simpa [expected, next] using valid
      exact moved.symm

namespace AuthoritativeState

/-- Every recorded result names the operation it is recorded for. -/
def WellKeyed (state : AuthoritativeState) : Prop :=
  ∀ (key : OperationKey) ack, state.ledger[key]? = some ack → ack.operationId = key.2

/-- The later state has forgotten nothing the earlier one promised. -/
structure Extends (earlier later : AuthoritativeState) : Prop where
  recorded : ∀ (key : OperationKey) ack, earlier.ledger[key]? = some ack →
    later.ledger[key]? = some ack ∧
      later.operationLineages[key]? = earlier.operationLineages[key]? ∧
      later.operationDigests[key]? = earlier.operationDigests[key]?
  journal : earlier.journal <+: later.journal
  entities : ∀ (key : EntityKey) snapshot, earlier.entities[key]? = some snapshot →
    ∃ moved, later.entities[key]? = some moved ∧
      (moved = snapshot ∨ snapshot.current.version < moved.current.version)
  journalFloors : later.journalFloors = earlier.journalFloors
  keyed : earlier.WellKeyed → later.WellKeyed

theorem Extends.refl (state : AuthoritativeState) : state.Extends state where
  recorded _ _ found := ⟨found, rfl, rfl⟩
  journal := List.prefix_refl _
  entities _ snapshot found := ⟨snapshot, found, .inl rfl⟩
  journalFloors := rfl
  keyed := id

theorem Extends.trans {first second third : AuthoritativeState}
    (left : first.Extends second) (right : second.Extends third) : first.Extends third where
  recorded key ack found := by
    obtain ⟨kept, lineage, digest⟩ := left.recorded key ack found
    obtain ⟨still, sameLineage, sameDigest⟩ := right.recorded key ack kept
    exact ⟨still, sameLineage.trans lineage, sameDigest.trans digest⟩
  journal := left.journal.trans right.journal
  entities key snapshot found := by
    obtain ⟨moved, present, order⟩ := left.entities key snapshot found
    obtain ⟨last, final, later⟩ := right.entities key moved present
    refine ⟨last, final, ?_⟩
    rcases later with rfl | later
    · exact order
    · rcases order with rfl | order
      · exact .inr later
      · exact .inr (order.trans later)
  journalFloors := right.journalFloors.trans left.journalFloors
  keyed := right.keyed ∘ left.keyed

theorem Extends.unchanged {earlier later : AuthoritativeState} (extension : earlier.Extends later)
    (same : later.currentVersion key = earlier.currentVersion key) :
    later.entities[key]? = earlier.entities[key]? := by
  cases found : earlier.entities[key]? with
  | none => simpa [currentVersion, found] using same
  | some snapshot =>
    obtain ⟨moved, present, order⟩ := extension.entities key snapshot found
    have version : moved.current.version = snapshot.current.version := by
      simpa [currentVersion, found, present] using same
    rcases order with rfl | newer
    · exact present
    · exact absurd version (Nat.ne_of_gt newer)

theorem Admits.extends {state : AuthoritativeState}
    (admitted : state.Admits commit) : state.Extends (state.committed commit) where
  recorded key ack found := by
    have different : commit.operationKey ≠ key := by
      intro same
      rw [← same, admitted.fresh] at found
      cases found
    simp [committed, publish, lookup_insert, different, found]
  journal := List.prefix_append _ _
  entities key snapshot found := by
    by_cases same : commit.entityKey = key
    · subst key
      refine ⟨commit.entitySnapshot, by
        simp [committed, publish, staged], ?_⟩
      have current := admitted.current
      rw [currentVersion, found] at current
      right
      rw [entitySnapshot, nextVersion_eq admitted.valid, ← current]
      exact Nat.lt_succ_self _
    · refine ⟨snapshot, ?_, .inl rfl⟩
      simp [committed, publish, lookup_insert, same, found]
  journalFloors := rfl
  keyed wellKeyed key ack found := by
    by_cases same : commit.operationKey = key
    · subst key
      simp only [committed, publish, lookup_insert, ↓reduceIte] at found
      cases found
      rfl
    · refine wellKeyed key ack ?_
      simpa [committed, publish, lookup_insert, same] using found

end AuthoritativeState

theorem Committed.extends (ended : Committed store commit next result) : store.state.Extends next.state := by
  cases ended with
  | applied admitted => exact admitted.extends
  | lost admitted => exact admitted.extends
  | _ => exact .refl _

theorem InMemoryAuthoritativeStore.step_extends (store : InMemoryAuthoritativeStore)
    (action : StoreAction) : store.state.Extends (store.step action).state := by
  cases action with
  | injectCommitFailure => exact .refl _
  | commitOperation commit => exact (store.commitOperation_committed commit).extends
  | createSnapshot => exact ⟨fun _ _ found => ⟨found, rfl, rfl⟩, List.prefix_refl _,
      fun _ snapshot found => ⟨snapshot, found, .inl rfl⟩, rfl, id⟩

theorem InMemoryAuthoritativeStore.run_extends (store : InMemoryAuthoritativeStore) (actions : List StoreAction) :
    store.state.Extends (Run.final step store actions).state := by
  induction actions generalizing store with
  | nil => exact .refl _
  | cons action _ ih => exact (store.step_extends action).trans (ih (store.step action))

/-- Once an operation is recorded, committing it again under its lineage and digest reports the
recorded result. -/
theorem InMemoryAuthoritativeStore.commitOperation_retry (valid : commit.hasValidVersionTransition = true)
    (recorded : store.state.ledger[commit.operationKey]? = some previous)
    (lineage : store.state.operationLineages[commit.operationKey]? = some commit.operationLineage)
    (digest : store.state.operationDigests[commit.operationKey]? =
      some (commit.commandDigest, commit.operationKind)) :
    store.commitOperation commit = (store, .ok (.duplicate previous)) := by
  simp [commitOperation, retry, valid, recorded, lineage, digest]

end Aequora.Store
