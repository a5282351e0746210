import Aequora.Store.ClientStore
import Aequora.Store.SqlTables
import Mathlib.Data.List.MinMax

/-! The outbox table of the SQL adapters. Rows are numbered as they are inserted and selected in
that order. -/

namespace Aequora.Store

open Std Aequora.Base Aequora.Protocol

namespace OutboxTable
variable {Schedule : Type} (table : OutboxTable Detail Schedule)

def nextOrder : Nat := ((listing table).map OutboxRow.order).foldr max 0 + 1

def insertRow (operation : OperationEnvelope) (schedule : Schedule) : OutboxTable Detail Schedule :=
  table.insert operation.operationId
    { operation
      order := nextOrder table
      state := .pending
      terminalDetail := none
      schedule }

/-- Move a row that may be sent to another state. -/
def moveRow (missing terminal : StoreError) (next : OutboxState) (reschedule : Schedule → Schedule)
    (operation : OperationId) : Except StoreError (OutboxTable Detail Schedule) :=
  match table[operation]? with
  | none => .error missing
  | some row =>
    if row.state.isReplayable then
      .ok (table.insert operation { row with state := next, schedule := reschedule row.schedule })
    else .error terminal

def waiting : List (OutboxRow Detail Schedule) :=
  sortByKey OutboxRow.order ((listing table).filter fun row => row.state.isReplayable)

def select (ready : OutboxRow Detail Schedule → Bool) (limit : Nat) : List OperationEnvelope :=
  (((waiting table).filter ready).take limit).map OutboxRow.operation

def queue (due : OutboxRow Detail Schedule → Option Nat) : List QueueEntry :=
  (waiting table).map fun row => ⟨row.operation, due row⟩

def outline (operation : OperationId) : Option (OperationEnvelope × Nat) :=
  (table[operation]?).map fun row => (row.operation, row.order)

def Settled (operation : OperationId) : Prop :=
  ((table[operation]?).map OutboxRow.state).any OutboxState.isTerminal = true

/-- Each row is found under its operation, and its dependencies have smaller numbers. -/
structure Sequenced (appended : List OperationId) : Prop where
  known : ∀ operation ∈ appended, (outline table operation).isSome
  keyed : ∀ operation found, outline table operation = some found → found.1.operationId = operation
  ordered : ∀ operation found, outline table operation = some found →
    ∀ needed ∈ dependenciesOf found.1, ∃ dependency, outline table needed = some dependency ∧
      dependency.2 < found.2

variable {table}

theorem select_eq (due : OutboxRow Detail Schedule → Option Nat) (now limit : Nat) :
    select table (fun row => (due row).any fun time => decide (time ≤ now)) limit =
      (selection QueueEntry.due now limit (queue table due)).map QueueEntry.operation := by
  rw [select, selection, queue, List.filter_map, ← List.map_take, List.map_map]
  rfl

theorem Sequenced.initial : Sequenced (∅ : OutboxTable Detail Schedule) [] where
  known _ member := nomatch member
  keyed operation found stored := by simp [outline] at stored
  ordered operation found stored := by simp [outline] at stored

theorem Sequenced.of_outline (sequenced : Sequenced table appended)
    (same : outline next = outline table) : Sequenced next appended := by
  obtain ⟨_, _, _⟩ := sequenced
  exact ⟨by rwa [same], by rwa [same], by rwa [same]⟩

variable {operation : OperationId}

theorem order_lt_nextOrder (found : table[operation]? = some row) : row.order < nextOrder table :=
  Nat.lt_succ_of_le (List.le_max_of_le' 0 (List.mem_map_of_mem (mem_listing_of_lookup found)) (Nat.le_refl _))

theorem outline_insertRow (operation : OperationEnvelope) (schedule : Schedule) (other : OperationId) :
    outline (insertRow table operation schedule) other =
      if operation.operationId = other then some (operation, nextOrder table) else outline table other := by
  rw [outline, insertRow, lookup_insert]
  split
  · rfl
  · rfl

theorem Sequenced.insertRow {operation : OperationEnvelope}
    (sequenced : Sequenced table appended) (fresh : table[operation.operationId]? = none)
    (follows : ∀ needed ∈ dependenciesOf operation, needed ∈ appended) :
    Sequenced (insertRow table operation schedule) (operation.operationId :: appended) := by
  have kept : ∀ other found, outline table other = some found →
      outline (OutboxTable.insertRow table operation schedule) other = some found := by
    intro other found stored
    rw [outline_insertRow, if_neg, stored]
    rintro rfl
    rw [outline, fresh] at stored
    cases stored
  constructor
  · intro other member
    rw [outline_insertRow]
    split
    · rfl
    · rename_i different
      exact sequenced.known other ((List.mem_cons.mp member).resolve_left (Ne.symm different))
  · intro other found stored
    rw [outline_insertRow] at stored
    split at stored
    · rename_i same
      cases stored
      exact same
    · exact sequenced.keyed other found stored
  · intro other found stored needed asked
    rw [outline_insertRow] at stored
    split at stored
    · cases stored
      obtain ⟨dependency, present⟩ := Option.isSome_iff_exists.mp (sequenced.known needed (follows needed asked))
      refine ⟨dependency, kept needed dependency present, ?_⟩
      obtain ⟨_, held, rfl⟩ := Option.map_eq_some_iff.mp present
      exact order_lt_nextOrder held
    · obtain ⟨dependency, present, sooner⟩ := sequenced.ordered other found stored needed asked
      exact ⟨dependency, kept needed dependency present, sooner⟩

theorem outline_insert (found : table[operation]? = some row) (same : next.operation = row.operation)
    (numbered : next.order = row.order) : outline (table.insert operation next) = outline table := by
  funext other
  rw [outline, lookup_insert]
  split
  · rename_i here
    subst other
    rw [outline, found, Option.map_some, Option.map_some, same, numbered]
  · rfl

theorem outline_updateTerminal (operation : OperationId) (state : OutboxState) (detail : Detail) :
    outline (updateTerminal table operation state detail) = outline table := by
  unfold updateTerminal
  split
  · rfl
  · rename_i row found
    exact outline_insert found rfl rfl

theorem moveRow_eq (success : moveRow table missing terminal next reschedule operation = .ok moved) :
    ∃ row, table[operation]? = some row ∧ row.state.isReplayable = true ∧
      moved = table.insert operation { row with state := next, schedule := reschedule row.schedule } := by
  unfold moveRow at success
  split at success
  · cases success
  · rename_i row found
    split at success
    · rename_i replayable
      cases success
      exact ⟨row, found, replayable, rfl⟩
    · cases success

section Queue
variable (sequenced : Sequenced table appended)
include sequenced

theorem Sequenced.carried (operation : OperationId) (row : OutboxRow Detail Schedule)
    (found : table[operation]? = some row) : row.operation.operationId = operation :=
  sequenced.keyed operation (row.operation, row.order) (by rw [outline, found]; rfl)

theorem Sequenced.mem_waiting : row ∈ waiting table ↔
    table[row.operation.operationId]? = some row ∧ row.state.isReplayable = true := by
  have listed : row ∈ listing table ↔ table[row.operation.operationId]? = some row :=
    mem_listing (sequenced.carried · ·)
  rw [waiting, mem_sortByKey, List.mem_filter, listed]

theorem Sequenced.supported (due : OutboxRow Detail Schedule → Option Nat) :
    Supported (OperationEnvelope.operationId ∘ QueueEntry.operation) (dependenciesOf ∘ QueueEntry.operation)
      (Settled table) (queue table due) := by
  refine supported_map.mpr (Supported.of_pairwise (pairwise_sortByKey _) fun row member needed asked => ?_)
  obtain ⟨stored, _⟩ := sequenced.mem_waiting.mp member
  obtain ⟨_, present, sooner⟩ := sequenced.ordered _ (row.operation, row.order) (by rw [outline, stored]; rfl)
    needed asked
  obtain ⟨dependency, held, rfl⟩ := Option.map_eq_some_iff.mp present
  have name := sequenced.carried needed dependency held
  by_cases replayable : dependency.state.isReplayable = true
  · have waits : dependency ∈ waiting table := sequenced.mem_waiting.mpr ⟨by rwa [name], replayable⟩
    refine .inr ⟨dependency, waits, name, ?_, ?_⟩
    · rintro rfl
      exact Nat.lt_irrefl _ sooner
    · rw [Nat.isLE_compare]
      exact Nat.not_le_of_lt sooner
  · refine .inl ?_
    rw [Settled, held]
    simpa [OutboxState.isTerminal_eq] using replayable

theorem Sequenced.distinct : ∀ first ∈ queue table due, ∀ second ∈ queue table due,
      first.operation.operationId = second.operation.operationId → first = second := by
  intro _ inside _ within same
  obtain ⟨row, member, rfl⟩ := List.mem_map.mp inside
  obtain ⟨other, present, rfl⟩ := List.mem_map.mp within
  have stored := (sequenced.mem_waiting.mp member).1
  have rowFound := (sequenced.mem_waiting.mp present).1
  have names : row.operation.operationId = other.operation.operationId := same
  rw [← names, stored] at rowFound
  cases rowFound
  rfl

end Queue

end OutboxTable

end Aequora.Store
