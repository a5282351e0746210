import Aequora.Store.Sqlite
import Aequora.Store.Stoolap

/-! Completeness of the local stores across authority timelines. All three keep the marks of applied
sequences when a snapshot is installed, so a newer timeline that starts below a mark loses a change.
-/

namespace Aequora.Store

open Std Aequora.Base Aequora.Protocol StoolapTables LocalState Run Refinement ScopeHistory

section Complete
variable {store : LocalStore State Surroundings}

/-- Whatever run of delivered calls starts from the state: the scope is complete throughout exactly
when no accepted reconciliation misses a change, and it is when the run only moves forward. -/
def Refinement.CompleteRuns (refinement : Refinement store) (history : ScopeHistory scope) (start : State) : Prop :=
  ∀ actions : List (LocalAction Surroundings),
    Permitted (store.step scope) (refinement.Delivered history) ⟨start, []⟩ actions →
      (Throughout (store.step scope)
          (fun session => history.Complete (refinement.view session.state scope)) ⟨start, []⟩ actions ↔
        Permitted (store.step scope) (refinement.Thorough history) ⟨start, []⟩ actions) ∧
      (Permitted (store.step scope) (refinement.Forward scope) ⟨start, []⟩ actions →
        Throughout (store.step scope)
          (fun session => history.Complete (refinement.view session.state scope)) ⟨start, []⟩ actions)

theorem Refinement.completeRuns (refinement : Refinement store) (history : ScopeHistory scope)
    (fresh : refinement.view start scope = Replica.empty) : refinement.CompleteRuns history start :=
  fun _ delivered =>
    ⟨refinement.complete_iff fresh rfl delivered, refinement.complete_of_forward fresh rfl delivered⟩

end Complete

theorem LocalState.view_default (scope : SyncScopeId) : LocalState.default.view scope = Replica.empty := by
  ext1
  · simp [view, LocalState.default, Replica.empty]
  · ext1 <;> rfl
  · simp [view, LocalState.default, Replica.empty]

theorem SqliteTables.view_empty (scope : SyncScopeId) : SqliteTables.empty.view scope = Replica.empty := rfl

theorem StoolapTables.view_empty (scope : SyncScopeId) : StoolapTables.empty.view scope = Replica.empty := rfl

/-- A change of one scope. -/
def exampleChange (sequence : Sequence) (id : BitVec 128) (payload : List UInt8) : RemoteChange where
  tenantId := ⟨1⟩
  scopeId := ⟨1⟩
  sequence
  operationId := ⟨id⟩
  eventId := ⟨id⟩
  lineage := ⟨⟨1⟩, none⟩
  entity := { entityType := 1, entityId := ⟨id⟩ }
  version := 1
  changeKind := .upsert
  payload
  timestamp := ⟨0, 0, ⟨1⟩⟩

/-- Epoch 1 ends after two changes; epoch 2 keeps the first and goes on with others. -/
def exampleJournal (timeline : AuthorityTimeline) : List RemoteChange :=
  if timeline = ⟨⟨1⟩, 1⟩ then [exampleChange 1 1 [1], exampleChange 2 2 [1]]
  else if timeline = ⟨⟨1⟩, 2⟩ then [exampleChange 1 1 [1], exampleChange 2 3 [2], exampleChange 3 4 [2]]
  else []

def exampleHistory : ScopeHistory ⟨1⟩ where
  journal := exampleJournal
  numbered timeline := by
    unfold exampleJournal
    split
    · exact ⟨rfl, rfl, trivial⟩
    · split
      · exact ⟨rfl, rfl, rfl, trivial⟩
      · trivial
  owned timeline change member := by
    unfold exampleJournal at member
    split at member
    · simp at member
      rcases member with rfl | rfl <;> rfl
    · split at member
      · simp at member
        rcases member with rfl | rfl | rfl <;> rfl
      · cases member

def exampleCursor (epoch : AuthorityEpoch) (sequence : Sequence) : Cursor where
  scope := ⟨1⟩
  sequence
  authorityId := ⟨1⟩
  authorityEpoch := epoch

/-- The response that continues a timeline from one sequence to another. -/
def exampleResponse (epoch : AuthorityEpoch) (first last : Sequence) : SyncResponse where
  protocol := 1
  directive := .continue
  acknowledged := []
  rejected := []
  conflicts := []
  changes := exampleHistory.between ⟨⟨1⟩, epoch⟩ first last
  nextCursor := exampleCursor epoch last
  hasMore := false
  serverTime := ⟨0, 0, ⟨1⟩⟩

/-- The snapshot of a timeline at a sequence, on one page. -/
def exampleSnapshot (epoch : AuthorityEpoch) (sequence : Sequence) : BootstrapResponse where
  protocol := 1
  snapshotId := ⟨1⟩
  cursor := exampleCursor epoch sequence
  offset := 0
  entities := ((exampleJournal ⟨⟨1⟩, epoch⟩).take sequence).map RemoteChange.snapshotEntity
  nextOffset := sequence
  hasMore := false
  serverTime := ⟨0, 0, ⟨1⟩⟩

/-- Epoch 1 to its end, then epoch 2 from a snapshot at the given sequence. -/
def exampleFailover {Surroundings : Type} (around : Surroundings) (sequence : Sequence) :
    List (LocalAction Surroundings) :=
  [.reconcile around (exampleResponse 1 0 2), .stageSnapshot around (exampleSnapshot 2 sequence),
    .reconcile around (exampleResponse 2 sequence 3)]

def exampleSurroundings (Detail : Type) (detail : Detail) : SqlSurroundings Detail where
  applyChange _ _ := .ok ()
  applySnapshotEntity _ _ := .ok ()
  encodeAck _ := .ok detail
  encodeRejection _ := .ok detail
  encodeConflict _ := .ok detail

def exampleSqlite : SqliteSurroundings := { exampleSurroundings (List UInt8) [] with now := 0 }

def exampleStoolap : StoolapSurroundings :=
  { exampleSurroundings String "" with
    fence := .ok ()
    beginSnapshot := fun _ => .ok ()
    finishSnapshot := fun _ => .ok ()
    checkViolation := "" }

theorem exampleResponse_wellFormed (epoch : AuthorityEpoch) (first last : Sequence) :
    WellFormed (exampleResponse epoch first last) := by
  intro _ member
  obtain ⟨owned, after, _⟩ := exampleHistory.mem_between member
  exact ⟨owned, Nat.zero_lt_of_lt after⟩

theorem exampleSnapshot_carried (epoch : AuthorityEpoch) (sequence : Sequence) :
    overwrite SnapshotEntity.entity id (fun _ => none) (exampleSnapshot epoch sequence).entities =
      exampleHistory.stateAt ⟨⟨1⟩, epoch⟩ sequence := by
  unfold overwrite stateAt exampleSnapshot
  exact List.foldl_map

section Failover
variable {store : LocalStore State Surroundings} (refinement : Refinement store)
  {around : Surroundings} {start : State} {sequence : Sequence}

/-- All calls of the failover are accepted. -/
structure FailoverAccepted (store : LocalStore State Surroundings) (around : Surroundings) (start : State)
    (sequence : Sequence) : Prop where
  first : (store.reconcile around (exampleResponse 1 0 2) start).2 = .ok ()
  installed : (store.stageSnapshot around (exampleSnapshot 2 sequence)
    (store.reconcile around (exampleResponse 1 0 2) start).1).2 = .ok ()
  second : (store.reconcile around (exampleResponse 2 sequence 3)
    (store.stageSnapshot around (exampleSnapshot 2 sequence)
      (store.reconcile around (exampleResponse 1 0 2) start).1).1).2 = .ok ()

variable (accepted : FailoverAccepted store around start sequence)
  (fresh : refinement.view start ⟨1⟩ = Replica.empty)
include accepted fresh

theorem failover_first :
    refinement.view (store.reconcile around (exampleResponse 1 0 2) start).1 ⟨1⟩ =
      Replica.empty.reconcile (exampleResponse 1 0 2) := by
  rw [refinement.reconcile _ _ _ _ (exampleResponse_wellFormed 1 0 2), if_pos ⟨accepted.first, rfl⟩, fresh]

theorem failover_installed :
    refinement.view (store.stageSnapshot around (exampleSnapshot 2 sequence)
        (store.reconcile around (exampleResponse 1 0 2) start).1).1 ⟨1⟩ =
      (Replica.empty.reconcile (exampleResponse 1 0 2)).stage (exampleSnapshot 2 sequence) := by
  rw [refinement.stage, if_pos ⟨accepted.installed, rfl⟩, failover_first refinement accepted fresh]

theorem failover_final :
    refinement.view (final (store.step ⟨1⟩) ⟨start, []⟩ (exampleFailover around sequence)).state ⟨1⟩ =
      ((Replica.empty.reconcile (exampleResponse 1 0 2)).stage (exampleSnapshot 2 sequence)).reconcile
        (exampleResponse 2 sequence 3) := by
  have last := refinement.reconcile around (exampleResponse 2 sequence 3)
    (store.stageSnapshot around (exampleSnapshot 2 sequence)
      (store.reconcile around (exampleResponse 1 0 2) start).1).1 ⟨1⟩ (exampleResponse_wellFormed 2 sequence 3)
  rw [if_pos ⟨accepted.second, rfl⟩, failover_installed refinement accepted fresh] at last
  exact last

theorem failover_delivered :
    Permitted (store.step ⟨1⟩) (refinement.Delivered exampleHistory) ⟨start, []⟩
      (exampleFailover around sequence) := by
  refine ⟨⟨exampleResponse_wellFormed 1 0 2, fun _ _ => ?_⟩, fun _ _ _ => exampleSnapshot_carried 2 sequence,
    ⟨exampleResponse_wellFormed 2 sequence 3, fun _ _ => ?_⟩, trivial⟩
  · rw [Delivers, fresh]
    rfl
  · have held := failover_installed refinement accepted fresh
    show exampleHistory.Delivers (refinement.view (store.stageSnapshot around (exampleSnapshot 2 sequence)
      (store.reconcile around (exampleResponse 1 0 2) start).1).1 ⟨1⟩) _
    rw [held]
    rfl

theorem failover_forward (onward : 2 ≤ sequence) :
    Permitted (store.step ⟨1⟩) (refinement.Forward ⟨1⟩) ⟨start, []⟩ (exampleFailover around sequence) := by
  refine ⟨fun _ _ => ?_, fun _ _ _ => ?_, fun _ _ => ?_, trivial⟩
  · rw [fresh]
    intro stored found
    cases found
  · have held := failover_first refinement accepted fresh
    show ∀ count, (refinement.view (store.reconcile around (exampleResponse 1 0 2) start).1 ⟨1⟩).content.marks
      count = true → count ≤ sequence
    rw [held]
    have bounded : Bounded (Replica.empty.reconcile (exampleResponse 1 0 2)) :=
      Bounded.reconcile exampleHistory (fun _ marked => nomatch marked) rfl (Nat.zero_le _)
    exact fun count marked => (bounded count marked).trans onward
  · have held := failover_installed refinement accepted fresh
    show Follows (refinement.view (store.stageSnapshot around (exampleSnapshot 2 sequence)
      (store.reconcile around (exampleResponse 1 0 2) start).1).1 ⟨1⟩) _
    rw [held]
    intro _ found
    cases found
    rfl

end Failover

theorem failover_incomplete : ¬exampleHistory.Complete
    (((Replica.empty.reconcile (exampleResponse 1 0 2)).stage (exampleSnapshot 2 1)).reconcile
      (exampleResponse 2 1 3)) := by
  intro complete
  have entry := congrFun complete { entityType := 1, entityId := ⟨3⟩ }
  revert entry
  decide +kernel

section
variable (sequence : Sequence) (near : sequence = 1 ∨ sequence = 2)
include sequence near

theorem reference_accepts :
    FailoverAccepted referenceStore () LocalState.default sequence := by
  rcases near with rfl | rfl <;> exact ⟨by decide +kernel, by decide +kernel, by decide +kernel⟩

theorem sqlite_accepts :
    FailoverAccepted sqliteStore exampleSqlite SqliteTables.empty sequence := by
  rcases near with rfl | rfl <;> exact ⟨by decide +kernel, by decide +kernel, by decide +kernel⟩

theorem stoolap_accepts :
    FailoverAccepted stoolapStore exampleStoolap StoolapTables.empty sequence := by
  rcases near with rfl | rfl <;> exact ⟨by decide +kernel, by decide +kernel, by decide +kernel⟩

end

end Aequora.Store
