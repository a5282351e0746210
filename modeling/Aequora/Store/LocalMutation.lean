import Aequora.Store.DependencyOrder
import Aequora.Store.StoolapDigests

/-! A local change and the intent to synchronize it in one transaction. The adapters differ in what
they make of an operation that has a row already. -/

namespace Aequora.Store

open Std Aequora.Base Aequora.Protocol StoolapQueue OutboxTable LocalOutbox

/-- The mutation, the insertion of the outbox row, and the commit. -/
def transactLocalMutation {Database : Type} (mutate insert : Database → Except StoreError Database)
    (commit : Except StoreError Unit) (database : Database) : Database × Except StoreError Unit :=
  commitOrRollback database (do
    let mutated ← mutate database
    let stored ← insert mutated
    commit
    return stored)

structure StoolapDatabase (Domain : Type) where
  domain : Domain
  queue : StoolapQueue
deriving DecidableEq

def StoolapDatabase.transactLocalMutation {Domain : Type} (engine : StoolapEngine) (operation : OperationEnvelope)
    (mutate : StoolapDatabase Domain → Except StoreError (StoolapDatabase Domain)) (commit : Except StoreError Unit) :
    StoolapDatabase Domain → StoolapDatabase Domain × Except StoreError Unit :=
  Store.transactLocalMutation mutate
    (fun database => (database.queue.insertOutbox engine operation).map fun queue => { database with queue })
    commit

structure SqliteDatabase (Domain : Type) where
  domain : Domain
  tables : SqliteTables

def SqliteDatabase.transactLocalMutation {Domain : Type} (around : SqliteCall) (operation : OperationEnvelope)
    (mutate : SqliteDatabase Domain → Except StoreError (SqliteDatabase Domain)) (commit : Except StoreError Unit) :
    SqliteDatabase Domain → SqliteDatabase Domain × Except StoreError Unit :=
  Store.transactLocalMutation mutate
    (fun database => (database.tables.appendOperation around operation).map fun tables =>
      { database with tables })
    commit

/-- The row under the identity of the operation holds exactly that operation. -/
def OutboxTable.Holds {Detail Schedule : Type} (table : OutboxTable Detail Schedule) (operation : OperationEnvelope) :
    Prop :=
  ∃ row : OutboxRow Detail Schedule, table[operation.operationId]? = some row ∧ row.operation = operation

theorem OutboxTable.holds_insertRow {Schedule : Type} (table : OutboxTable Detail Schedule)
    (operation : OperationEnvelope) (schedule : Schedule) :
    Holds (OutboxTable.insertRow table operation schedule) operation := by
  refine ⟨{ operation, order := nextOrder table, state := .pending, terminalDetail := none, schedule }, ?_, rfl⟩
  rw [insertRow, lookup_insert, if_pos rfl]

section Transaction
variable {insert : Database → Except StoreError Database}

theorem transactLocalMutation_ok (accepted : (transactLocalMutation mutate insert commit database).2 = .ok ()) :
    ∃ mutated, mutate database = .ok mutated ∧ commit = .ok () ∧
      insert mutated = .ok (transactLocalMutation mutate insert commit database).1 := by
  have commits := commitOrRollback_accepted accepted
  obtain ⟨mutated, first, commits⟩ := bind_eq_ok_iff.mp commits
  obtain ⟨_, second, commits⟩ := bind_eq_ok_iff.mp commits
  obtain ⟨third, commits⟩ := check_bind_eq_ok.mp commits
  refine ⟨mutated, first, third, second.trans ?_⟩
  rw [Except.ok.injEq]
  exact Except.ok.inj commits

theorem transactLocalMutation_refused (first : mutate database = .ok mutated)
    (refused : insert mutated = .error error) :
    transactLocalMutation mutate insert commit database = (database, .error error) := by
  simp [transactLocalMutation, first, refused, bind, Except.bind, commitOrRollback]

theorem transactLocalMutation_commits (first : mutate database = .ok mutated) (second : insert mutated = .ok stored) :
    transactLocalMutation mutate insert (.ok ()) database = (stored, .ok ()) := by
  simp [transactLocalMutation, first, second, bind, Except.bind, commitOrRollback, pure, Except.pure]

end Transaction

section Adapters
namespace StoolapDatabase
variable {mutate : StoolapDatabase Domain → Except StoreError (StoolapDatabase Domain)}

theorem transactLocalMutation_known (first : mutate database = .ok mutated)
    (known : operation.operationId ∈ mutated.queue.outbox) :
    database.transactLocalMutation engine operation mutate (.ok ()) = (mutated, .ok ()) := by
  refine transactLocalMutation_commits first ?_
  rw [insertOutbox, if_pos known]
  rfl

/-- What succeeds leaves a row that the mutation left, or the row of the operation. -/
theorem transactLocalMutation_accepted
    (accepted : (database.transactLocalMutation engine operation mutate commit).2 = .ok ()) :
    ∃ mutated, mutate database = .ok mutated ∧ commit = .ok () ∧
      (operation.operationId ∈ mutated.queue.outbox ∧
          (database.transactLocalMutation engine operation mutate commit).1 = mutated ∨
        Holds (database.transactLocalMutation engine operation mutate commit).1.queue.outbox operation) := by
  obtain ⟨mutated, first, third, second⟩ := transactLocalMutation_ok accepted
  obtain ⟨_, inserted, stored⟩ := map_eq_ok_iff.mp second
  refine ⟨mutated, first, third, ?_⟩
  rcases insertOutbox_cases inserted with ⟨known, rfl⟩ | ⟨-, _, -, rfl⟩
  · exact .inl ⟨known, stored.symm⟩
  · right
    rw [transactLocalMutation, ← stored]
    exact holds_insertRow _ _ _

/-- Success means that the row holds the operation, and an operation whose row holds another
envelope is refused. -/
def Exact (engine : StoolapEngine) (operation : OperationEnvelope)
    (mutate : StoolapDatabase Domain → Except StoreError (StoolapDatabase Domain)) (commit : Except StoreError Unit)
    (database : StoolapDatabase Domain) : Prop :=
  ((database.transactLocalMutation engine operation mutate commit).2 = .ok () →
    Holds (database.transactLocalMutation engine operation mutate commit).1.queue.outbox operation) ∧
  ∀ mutated, mutate database = .ok mutated → ∀ row : DeliveryRow,
    mutated.queue.outbox[operation.operationId]? = some row → row.operation ≠ operation →
      (database.transactLocalMutation engine operation mutate commit).2 ≠ .ok ()

theorem exact_iff : database.Exact engine operation mutate commit ↔
    ∀ mutated, mutate database = .ok mutated → commit = .ok () → ∀ row : DeliveryRow,
      mutated.queue.outbox[operation.operationId]? = some row → row.operation = operation := by
  constructor
  · rintro ⟨-, refuses⟩ mutated first rfl row found
    by_contra differs
    refine refuses mutated first row found differs ?_
    rw [transactLocalMutation_known first (mem_iff_lookup.mpr ⟨row, found⟩)]
  · intro same
    refine ⟨fun accepted => ?_, fun mutated first row found differs accepted => ?_⟩
    · obtain ⟨mutated, first, commits, ⟨known, final⟩ | holds⟩ := transactLocalMutation_accepted accepted
      · obtain ⟨row, found⟩ := mem_iff_lookup.mp known
        rw [final]
        exact ⟨row, found, same mutated first commits row found⟩
      · exact holds
    · obtain ⟨_, _, commits, _⟩ := transactLocalMutation_accepted accepted
      exact differs (same mutated first commits row found)

end StoolapDatabase

namespace SqliteDatabase
variable {around : SqliteCall}
  {database : SqliteDatabase Domain}

theorem appendOperation_known (around : SqliteCall) {tables : SqliteTables}
    (known : operation.operationId ∈ tables.operationOutbox) :
    ∃ error, tables.appendOperation around operation = .error error := by
  cases appended : tables.appendOperation around operation with
  | error error => exact ⟨error, rfl⟩
  | ok _ =>
    obtain ⟨-, appended⟩ := check_bind_eq_ok.mp appended
    obtain ⟨fresh, -⟩ := check_bind_eq_ok.mp appended
    exact absurd known (require_eq_ok.mp fresh)

theorem appendOperation_holds {tables next : SqliteTables}
    (appended : tables.appendOperation around operation = .ok next) :
    Holds next.operationOutbox operation := by
  obtain ⟨-, appended⟩ := check_bind_eq_ok.mp appended
  obtain ⟨-, appended⟩ := check_bind_eq_ok.mp appended
  cases appended
  exact holds_insertRow _ _ _

theorem transactLocalMutation_holds
    (accepted : (database.transactLocalMutation around operation mutate commit).2 = .ok ()) :
    Holds (database.transactLocalMutation around operation mutate commit).1.tables.operationOutbox
      operation := by
  obtain ⟨_, -, -, second⟩ := transactLocalMutation_ok accepted
  obtain ⟨_, appended, stored⟩ := map_eq_ok_iff.mp second
  rw [transactLocalMutation, ← stored]
  exact appendOperation_holds appended

theorem transactLocalMutation_known {mutated : SqliteDatabase Domain} (first : mutate database = .ok mutated)
    (known : operation.operationId ∈ mutated.tables.operationOutbox) :
    ∃ error, database.transactLocalMutation around operation mutate commit = (database, .error error) := by
  obtain ⟨error, refused⟩ := appendOperation_known around known
  refine ⟨error, transactLocalMutation_refused first ?_⟩
  rw [refused]
  rfl

end SqliteDatabase

/-- A Stoolap mutation commits with exactly the given intent, and a reused identity with another
envelope is refused, exactly when the mutated database has no row of another envelope under the
identity. SQLite and the in-memory store refuse every identity they know. -/
theorem local_mutation_exact_iff (engine : StoolapEngine) (around : SqliteCall) (operation : OperationEnvelope)
    (commit : Except StoreError Unit) :
    (∀ (mutate : StoolapDatabase Domain → Except StoreError (StoolapDatabase Domain)) (database : StoolapDatabase Domain),
      database.Exact engine operation mutate commit ↔
        ∀ mutated, mutate database = .ok mutated → commit = .ok () → ∀ row : DeliveryRow,
          mutated.queue.outbox[operation.operationId]? = some row → row.operation = operation) ∧
    (∀ (mutate : SqliteDatabase Domain → Except StoreError (SqliteDatabase Domain)) (database : SqliteDatabase Domain),
      ((database.transactLocalMutation around operation mutate commit).2 = .ok () →
        Holds (database.transactLocalMutation around operation mutate commit).1.tables.operationOutbox
          operation) ∧
      ∀ mutated, mutate database = .ok mutated → operation.operationId ∈ mutated.tables.operationOutbox →
        ∃ error, database.transactLocalMutation around operation mutate commit = (database, .error error)) ∧
    ∀ state : LocalState, operation.operationId ∈ state.original →
      state.appendOperation operation =
        (state, .error (.permanent "operation ID already exists in local outbox")) := by
  refine ⟨fun _ _ => StoolapDatabase.exact_iff, fun _ _ => ⟨?_, fun _ => ?_⟩, fun _ known => if_pos known⟩
  · exact SqliteDatabase.transactLocalMutation_holds
  · exact SqliteDatabase.transactLocalMutation_known

def sampleReuse : OperationEnvelope := { exampleUpdate 1 [] with baseVersion := some 7 }

/-- The domain change commits with the envelope of the first operation as its only intent. -/
theorem stoolap_mutation_commits_reused_identity :
    (StoolapDatabase.mk 0 sampleQueue).transactLocalMutation sampleEngine sampleReuse
        (fun database => .ok { database with domain := 1 }) (.ok ()) =
      (StoolapDatabase.mk 1 sampleQueue, .ok ()) ∧
    (sampleQueue.outbox[sampleReuse.operationId]?).map OutboxRow.operation =
      some (exampleUpdate 1 []) ∧ exampleUpdate 1 [] ≠ sampleReuse := by
  decide +kernel

/-- Under an identity without a row the operation is stored as given. -/
theorem local_mutation_exact_fresh : ((StoolapDatabase.mk 0 .empty).transactLocalMutation sampleEngine sampleReuse
      (fun database => .ok { database with domain := 1 }) (.ok ())).2 = .ok () ∧
    (StoolapDatabase.mk 0 .empty).Exact sampleEngine sampleReuse
      (fun database => .ok { database with domain := 1 }) (.ok ()) := by
  refine ⟨by decide +kernel, ((local_mutation_exact_iff _ exampleSqliteCall _ _).1 _ _).mpr ?_⟩
  intro _ first _ _ found
  cases first
  simp [StoolapQueue.empty] at found

end Adapters

end Aequora.Store
