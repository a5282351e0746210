import Aequora.Journal.Watermarks
import Aequora.Store.JournalPages
import Aequora.Store.SnapshotReplay

/-! How far a journal may be compacted, and why no device that the plan covers notices. -/

namespace Aequora.Journal

open Std Aequora.Base Aequora.Protocol Aequora.Store InMemoryAuthoritativeStore AuthoritativeState

/-- What has to allow a compaction; without an active device nothing is forgotten. -/
structure CompactionInputs where
  snapshotSequence : Sequence
  minimumActiveCursor : Option Sequence
  retentionSequence : Sequence
  (auditSequence minimumPinningConsumerCursor : Option Sequence)

structure CompactionPlan where
  through : Sequence
deriving DecidableEq

def boundedBy (through : Sequence) : Option Sequence → Sequence
  | none => through
  | some bound => min through bound

def planCompaction (inputs : CompactionInputs) : Option CompactionPlan :=
  match inputs.minimumActiveCursor with
  | none => none
  | some active =>
    let through := min (min inputs.snapshotSequence active) inputs.retentionSequence
    let through := boundedBy through inputs.auditSequence
    let through := boundedBy through inputs.minimumPinningConsumerCursor
    if through > 0 then some { through } else none

theorem boundedBy_le (through : Sequence) (bound : Option Sequence) : boundedBy through bound ≤ through := by
  cases bound with
  | none => exact Nat.le_refl _
  | some _ => exact min_le_left _ _

theorem planCompaction_le (planned : planCompaction inputs = some plan) :
    ∃ active, inputs.minimumActiveCursor = some active ∧ plan.through ≤ active := by
  unfold planCompaction at planned
  split at planned
  · cases planned
  · rename_i active known
    dsimp only at planned
    split at planned
    · cases planned
      refine ⟨active, known, ?_⟩
      calc boundedBy (boundedBy _ inputs.auditSequence) inputs.minimumPinningConsumerCursor
        _ ≤ boundedBy _ inputs.auditSequence := boundedBy_le _ _
        _ ≤ min (min inputs.snapshotSequence active) inputs.retentionSequence := boundedBy_le _ _
        _ ≤ min inputs.snapshotSequence active := min_le_left _ _
        _ ≤ active := min_le_right _ _
    · cases planned

section Store
variable (store : InMemoryAuthoritativeStore) (tenant : TenantId) (scope : SyncScopeId) (through : Sequence)

theorem compactJournal_scopeJournal :
    (store.compactJournal tenant scope through).1.state.scopeJournal (tenant, scope) =
      beyond RemoteChange.sequence (store.state.scopeJournal (tenant, scope)) through := by
  unfold compactJournal scopeJournal beyond
  dsimp only
  rw [List.filter_filter, List.filter_filter]
  apply List.filter_congr
  intro change _
  by_cases mine : change.tenantId = tenant ∧ change.scopeId = scope
  · simp [mine]
  · simp [mine]

theorem compactJournal_other (other : key ≠ (tenant, scope)) :
    (store.compactJournal tenant scope through).1.state.scopeJournal key = store.state.scopeJournal key ∧
      (store.compactJournal tenant scope through).1.state.journalFloors[key]? = store.state.journalFloors[key]? := by
  unfold compactJournal scopeJournal
  dsimp only
  constructor
  · rw [List.filter_filter]
    apply List.filter_congr
    intro _ _
    rw [Bool.and_eq_left_iff_imp, decide_eq_true_eq]
    intro mine
    rw [decide_eq_true_eq]
    by_contra removed
    simp only [not_or, not_not] at removed
    exact other (mine.symm.trans (Prod.ext removed.1 removed.2.1))
  · rw [lookup_insert, if_neg (Ne.symm other)]

variable {through}

theorem compactJournal_readChangesAfter {sequence : Sequence} (passed : through ≤ sequence) (limit maxPayloadBytes : Nat) :
    (store.compactJournal tenant scope through).1.readChangesAfter tenant scope sequence limit maxPayloadBytes =
      store.readChangesAfter tenant scope sequence limit maxPayloadBytes := by
  have journal := compactJournal_scopeJournal store tenant scope through
  have changes : (beyond RemoteChange.sequence (store.state.scopeJournal (tenant, scope)) through).filter
      (fun change => sequence < change.sequence) =
        (store.state.scopeJournal (tenant, scope)).filter fun change => sequence < change.sequence :=
    beyond_beyond passed
  have head : max (((beyond RemoteChange.sequence (store.state.scopeJournal (tenant, scope)) through).map
      RemoteChange.sequence).max?.getD sequence) sequence =
        max (((store.state.scopeJournal (tenant, scope)).map RemoteChange.sequence).max?.getD sequence) sequence :=
    head_beyond passed
  unfold readChangesAfter
  dsimp only
  rw [journal, changes, head]

end Store

/-- Compaction along a plan shows to no active device: the floor stays at or below the cursor it was
last accepted with, and what it reads from there is what it would have read before. Journals and
floors of other scopes and tenants stay as they are. -/
theorem compaction_invisible {store : InMemoryAuthoritativeStore}
    {tenant : TenantId} {scope : SyncScopeId} {nowMs : Int} {inactiveAfter : Nat} {inputs : CompactionInputs}
    {plan : CompactionPlan} (first : store.state.journalFloors[(tenant, scope)]? = none)
    (given : inputs.minimumActiveCursor =
      (Run.final CursorWatermarks.step .default reports).minimumActiveCursor scope nowMs inactiveAfter)
    (planned : planCompaction inputs = some plan) :
    let compacted := (store.compactJournal tenant scope plan.through).1
    (∀ device report, lastAccepted reports device scope = some report → report.Active nowMs inactiveAfter →
      compacted.minimumRetainedCursor tenant scope ≤ report.cursor.sequence ∧
        ∀ limit maxPayloadBytes,
          compacted.readChangesAfter tenant scope report.cursor.sequence limit maxPayloadBytes =
            store.readChangesAfter tenant scope report.cursor.sequence limit maxPayloadBytes) ∧
      ∀ key, key ≠ (tenant, scope) →
        compacted.state.scopeJournal key = store.state.scopeJournal key ∧
          compacted.state.journalFloors[key]? = store.state.journalFloors[key]? := by
  intro compacted
  refine ⟨?_, fun key other => compactJournal_other store tenant scope plan.through other⟩
  intro _ report last active
  obtain ⟨_, known, below⟩ := planCompaction_le planned
  have covered : plan.through ≤ report.cursor.sequence :=
    Nat.le_trans below (minimum_le_lastAccepted last active (given.symm.trans known))
  refine ⟨?_, compactJournal_readChangesAfter store tenant scope covered⟩
  have floor : compacted.minimumRetainedCursor tenant scope = plan.through := by
    simp [compacted, minimumRetainedCursor, compactJournal, first]
  rw [floor]
  exact covered

/-- Of three changes the first two are forgotten; a device that stands at the second reads the third. -/
theorem compaction_invisible_second_change :
    let store := Run.final step .default
      [exampleWrite 1 ⟨5⟩ none 1, exampleWrite 2 ⟨5⟩ (some 1) 2, exampleWrite 3 ⟨5⟩ (some 2) 3]
    let inputs : CompactionInputs :=
      { snapshotSequence := 3, minimumActiveCursor := some 2, retentionSequence := 3
        auditSequence := none, minimumPinningConsumerCursor := none }
    planCompaction inputs = some { through := 2 } ∧
      (store.compactJournal ⟨1⟩ ⟨5⟩ 2).2 = 2 ∧
      (store.compactJournal ⟨1⟩ ⟨5⟩ 2).1.readChangesAfter ⟨1⟩ ⟨5⟩ 2 10 100 =
        store.readChangesAfter ⟨1⟩ ⟨5⟩ 2 10 100 := by
  intro store inputs
  have unseen := (@compaction_invisible [exampleReport 1 1, exampleReport 2 1] store ⟨1⟩ ⟨5⟩ 1000 500 inputs
    { through := 2 } (by decide +kernel) (by decide +kernel) (by decide +kernel)).1 ⟨1⟩ (exampleReport 2 1)
    (by decide +kernel) (by decide +kernel)
  exact ⟨by decide +kernel, by decide +kernel, unseen.2 10 100⟩

end Aequora.Journal
