import Aequora.Base.IncreasingLog
import Aequora.Store.Atomicity

/-! Pages of a scope's journal: a page is a first part of what lies above the sequence it starts
from, under commits and compactions. -/

namespace Aequora.Store

open Std Aequora.Base Aequora.Protocol

/-- Forget the changes of a scope up to a sequence; cursors below it have expired. The count of
forgotten changes is reported. -/
def InMemoryAuthoritativeStore.compactJournal (store : InMemoryAuthoritativeStore) (tenant : TenantId)
    (scope : SyncScopeId) (through : Sequence) : InMemoryAuthoritativeStore × Nat :=
  let floor := max (store.state.journalFloors[(tenant, scope)]?.getD 0) through
  let journal := store.state.journal.filter fun change =>
    change.tenantId ≠ tenant ∨ change.scopeId ≠ scope ∨ change.sequence > through
  ({ store with state := { store.state with
      journalFloors := store.state.journalFloors.insert (tenant, scope) floor
      journal } },
    store.state.journal.length - journal.length)

namespace AuthoritativeState

section
variable (state : AuthoritativeState) (key : ScopeKey)

def counter : Sequence := state.sequences[key]?.getD 0

theorem nextSequence_eq : state.nextSequence key = saturatingAdd (state.counter key) 1 := by
  unfold nextSequence counter
  cases state.sequences[key]? with
  | none => rfl
  | some _ => rfl

/-- The changes of a scope stand in the order of their sequences, which its counter has reached. -/
structure Ordered : Prop where
  increasing : Increasing RemoteChange.sequence (state.scopeJournal key)
  counted : ∀ change ∈ state.scopeJournal key, change.sequence ≤ state.counter key

end

theorem Ordered.initial (key : ScopeKey) : AuthoritativeState.default.Ordered key where
  increasing := List.Pairwise.nil
  counted _ member := nomatch member

variable {state : AuthoritativeState}

theorem committed_counter (state : AuthoritativeState) (commit : CommitOperation) (key : ScopeKey) :
    (state.committed commit).counter key =
      if commit.scopeKey = key then saturatingAdd (state.counter key) 1 else state.counter key := by
  by_cases same : commit.scopeKey = key
  · subst same
    simp [counter, committed, publish, staged, nextSequence_eq]
  · simp [counter, committed, publish, lookup_insert, same]

theorem committed_scopeJournal_other (other : commit.scopeKey ≠ key) :
    (state.committed commit).scopeJournal key = state.scopeJournal key := by
  have unmatched : ((state.staged commit).change.tenantId, (state.staged commit).change.scopeId) ≠ key := other
  simp [scopeJournal, committed, publish, unmatched]

theorem Ordered.committed (ordered : state.Ordered key)
    (room : (state.committed commit).counter key < u64Max) : (state.committed commit).Ordered key := by
  by_cases same : commit.scopeKey = key
  · subst same
    rw [committed_counter, if_pos rfl] at room
    have next : saturatingAdd (state.counter commit.scopeKey) 1 = state.counter commit.scopeKey + 1 :=
      saturatingAdd_one_of_lt (lt_of_saturatingAdd_one_lt room)
    have numbered : (state.staged commit).change.sequence = state.counter commit.scopeKey + 1 :=
      (state.nextSequence_eq commit.scopeKey).trans next
    refine ⟨?_, ?_⟩
    · rw [committed_scopeJournal]
      refine List.pairwise_append.mpr ⟨ordered.increasing, List.pairwise_singleton .., ?_⟩
      intro earlier member _ final
      cases List.mem_singleton.mp final
      rw [numbered]
      exact Nat.lt_succ_of_le (ordered.counted earlier member)
    · rw [committed_scopeJournal, committed_counter, if_pos rfl, next]
      intro change member
      rcases List.mem_append.mp member with old | new
      · exact Nat.le_succ_of_le (ordered.counted change old)
      · cases List.mem_singleton.mp new
        exact Nat.le_of_eq numbered
  · refine ⟨?_, ?_⟩
    · rw [committed_scopeJournal_other same]
      exact ordered.increasing
    · rw [committed_scopeJournal_other same, committed_counter, if_neg same]
      exact ordered.counted

end AuthoritativeState

theorem Committed.state_cases (ended : Committed store commit next result) :
    next.state = store.state ∨ next.state = store.state.committed commit := by
  cases ended with
  | applied admitted => exact .inr rfl
  | lost _ => exact .inr rfl
  | _ => exact .inl rfl

namespace InMemoryAuthoritativeStore
variable {store : InMemoryAuthoritativeStore}

theorem compactJournal_ordered (ordered : store.state.Ordered key) (tenant : TenantId)
    (scope : SyncScopeId) (through : Sequence) :
    (store.compactJournal tenant scope through).1.state.Ordered key := by
  have fewer : ((store.compactJournal tenant scope through).1.state.scopeJournal key).Sublist
      (store.state.scopeJournal key) := List.filter_sublist.filter _
  exact ⟨ordered.increasing.sublist fewer, fun change member => ordered.counted change (fewer.subset member)⟩

section
variable (store : InMemoryAuthoritativeStore)

theorem step_journal (action : StoreAction) (key : ScopeKey) :
    (∃ commit, (store.step action).state = store.state.committed commit) ∨
      (store.step action).state.scopeJournal key = store.state.scopeJournal key ∧
        (store.step action).state.counter key = store.state.counter key := by
  cases action with
  | injectCommitFailure _ => exact .inr ⟨rfl, rfl⟩
  | createSnapshot _ _ _ => exact .inr ⟨rfl, rfl⟩
  | commitOperation commit =>
    rcases (store.commitOperation_committed commit).state_cases with kept | published
    · simp only [step, kept, and_self, or_true]
    · exact .inl ⟨commit, published⟩

theorem step_ordered (action : StoreAction)
    (room : (store.step action).state.counter key < u64Max) :
    store.state.counter key < u64Max ∧
      (store.state.Ordered key → (store.step action).state.Ordered key) := by
  rcases store.step_journal action key with ⟨_, published⟩ | ⟨journal, counter⟩
  · rw [published] at room ⊢
    refine ⟨?_, fun ordered => ordered.committed room⟩
    rw [AuthoritativeState.committed_counter] at room
    split at room
    · exact lt_of_saturatingAdd_one_lt room
    · exact room
  · rw [counter] at room
    refine ⟨room, fun ordered => ⟨?_, ?_⟩⟩
    · rw [journal]
      exact ordered.increasing
    · rw [journal, counter]
      exact ordered.counted

theorem run_ordered (actions : List StoreAction)
    (room : (Run.final step store actions).state.counter key < u64Max) :
    store.state.counter key < u64Max ∧
      (store.state.Ordered key → (Run.final step store actions).state.Ordered key) := by
  induction actions generalizing store with
  | nil => exact ⟨room, id⟩
  | cons action _ ih =>
    obtain ⟨before, later⟩ := ih (store.step action) room
    obtain ⟨start, kept⟩ := store.step_ordered action before
    exact ⟨start, later ∘ kept⟩

end

end InMemoryAuthoritativeStore

section Page
variable (limit maxPayloadBytes : Nat)

theorem takeChanges_cut (taken payloadBytes : Nat) (changes : List RemoteChange) :
    ∃ rest, changes = (takeChanges limit maxPayloadBytes taken payloadBytes changes).1 ++ rest ∧
      ((takeChanges limit maxPayloadBytes taken payloadBytes changes).2 = true ↔ rest ≠ []) := by
  induction changes generalizing taken payloadBytes with
  | nil => exact ⟨[], rfl, by simp [takeChanges]⟩
  | cons change rest ih =>
    unfold takeChanges
    split
    · exact ⟨change :: rest, rfl, by simp⟩
    · obtain ⟨left, parts, flag⟩ := ih (taken + 1) (saturatingAdd payloadBytes change.payload.length)
      exact ⟨left, congrArg (change :: ·) parts, flag⟩

theorem takeChanges_eq_nil_iff (changes : List RemoteChange) :
    (takeChanges limit maxPayloadBytes 0 0 changes).1 = [] ↔ ∀ first, changes.head? = some first →
      limit = 0 ∨ saturatingAdd 0 first.payload.length > maxPayloadBytes := by
  cases changes with
  | nil => simp [takeChanges]
  | cons change _ =>
    unfold takeChanges
    split
    · rename_i exceeded
      simp only [List.head?_cons, Option.some.injEq, true_iff]
      rintro _ rfl
      exact exceeded.imp_left Eq.symm
    · rename_i fits
      simp only [List.head?_cons, Option.some.injEq, reduceCtorEq, false_iff, not_forall]
      exact ⟨change, rfl, fun exceeded => fits (exceeded.imp_left Eq.symm)⟩

variable (store : InMemoryAuthoritativeStore) (tenant : TenantId) (scope : SyncScopeId) (sequence : Sequence)

theorem InMemoryAuthoritativeStore.readChangesAfter_cut :
    ∃ rest, beyond RemoteChange.sequence (store.state.scopeJournal (tenant, scope)) sequence =
        (store.readChangesAfter tenant scope sequence limit maxPayloadBytes).changes ++ rest ∧
      ((store.readChangesAfter tenant scope sequence limit maxPayloadBytes).hasMore = true ↔ rest ≠ []) :=
  takeChanges_cut limit maxPayloadBytes 0 0 _

theorem InMemoryAuthoritativeStore.readChangesAfter_eq_nil_iff :
    (store.readChangesAfter tenant scope sequence limit maxPayloadBytes).changes = [] ↔
      ∀ first, (beyond RemoteChange.sequence (store.state.scopeJournal (tenant, scope)) sequence).head? =
        some first → limit = 0 ∨ saturatingAdd 0 first.payload.length > maxPayloadBytes :=
  takeChanges_eq_nil_iff limit maxPayloadBytes _

end Page

end Aequora.Store
