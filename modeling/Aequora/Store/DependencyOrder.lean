import Aequora.Store.Completeness
import Aequora.Store.ReferenceOutbox
import Aequora.Store.SqliteOutbox
import Aequora.Store.StoolapOutbox

/-! Dependencies in the outbox. All three local stores pass over an operation that is not due, and
still hand out what depends on it. -/

namespace Aequora.Store

open Std Aequora.Base Aequora.Protocol StoolapTables OutboxRefinement ClientStore Run OutboxAction

/-- Whatever is appended after its dependencies and then sent, retried, reconciled or withheld: in
every state, each of the local stores submits in the order of the dependencies exactly when every
operation that may be sent comes due after those of its dependencies that have no final result. -/
theorem localStores_submit_in_order_iff (referenceActions : List (OutboxAction ReferenceSurroundings))
    (sqliteActions : List (OutboxAction SqliteCall)) (stoolapActions : List (OutboxAction StoolapCall)) :
    LocalState.outboxRefinement.OrderedRun referenceActions ∧
      SqliteTables.outboxRefinement.OrderedRun sqliteActions ∧
      outboxRefinement.OrderedRun stoolapActions :=
  ⟨orderedRun _ _, orderedRun _ _, orderedRun _ _⟩

/-- An operation that waits for others. -/
def queuedOperation (id : BitVec 128) (dependencies : List OperationId) : OperationEnvelope where
  protocolVersion := 1
  operationId := ⟨id⟩
  tenantId := ⟨1⟩
  actorId := ⟨1⟩
  deviceId := ⟨1⟩
  entity := { entityType := 1, entityId := ⟨id⟩ }
  baseVersion := none
  createdAt := ⟨0, 0, ⟨1⟩⟩
  schemaVersion := 1
  operationKind := 1
  payload := []
  metadata := { traceId := none, dependencies, lineage := ⟨⟨1⟩, none⟩ }

/-- A second operation depends on the first, which alone is to be tried again later. -/
def deferredDependency {Surroundings : Type} (around : Surroundings) (nextAttempt : Nat) :
    List (OutboxAction Surroundings) :=
  [.append around (queuedOperation 1 []), .append around (queuedOperation 2 [⟨1⟩]),
    .markSending around [⟨1⟩], .markRetry around [⟨1⟩] nextAttempt]

def exampleReferenceCall : ReferenceSurroundings := { fence := .ok () }

def exampleSqliteCall : SqliteCall :=
  { exampleSqlite with
    leased := false
    encodeOperation := fun _ => .ok ()
    uniqueViolation := "" }

def exampleStoolapCall : StoolapCall :=
  { exampleStoolap with
    encodeOperation := fun _ => .ok ()
    hashOperation := fun _ => .ok ()
    encodeScopeState := fun _ => .ok () }

theorem localStores_submit_in_order_deferred :
    Throughout referenceClient.step (fun history => referenceClient.SubmitsInOrder history.state ↔
        LocalState.outboxRefinement.WaitsInOrder history.state) ⟨LocalState.default, []⟩
        (deferredDependency exampleReferenceCall 5) ∧
      Throughout sqliteClient.step (fun history => sqliteClient.SubmitsInOrder history.state ↔
        SqliteTables.outboxRefinement.WaitsInOrder history.state) ⟨SqliteTables.empty, []⟩
        (deferredDependency exampleSqliteCall 5) ∧
      Throughout stoolapClient.step (fun history => stoolapClient.SubmitsInOrder history.state ↔
        outboxRefinement.WaitsInOrder history.state) ⟨StoolapTables.empty, []⟩
        (deferredDependency exampleStoolapCall 5) := by
  obtain ⟨reference, sqlite, stoolap⟩ := localStores_submit_in_order_iff
    (deferredDependency exampleReferenceCall 5) (deferredDependency exampleSqliteCall 5)
    (deferredDependency exampleStoolapCall 5)
  exact ⟨reference (by decide +kernel), sqlite (by decide +kernel), stoolap (by decide +kernel)⟩

/-- An operation handed out first is out of order if a dependency of it has no final result. -/
theorem ClientStore.not_submitsInOrder {store : ClientStore State Surroundings} (handed : store.pendingOperations now limit state = .ok (operation :: rest))
    (depends : needed ∈ dependenciesOf operation) (unsettled : ¬store.Terminal state needed) :
    ¬store.SubmitsInOrder state := by
  intro inOrder
  rcases inOrder now limit _ handed [] operation rest rfl needed depends with settled | ⟨_, earlier, _⟩
  · exact unsettled settled
  · cases earlier

/-- The dependent operation is handed out while its dependency waits for its retry time. -/
theorem localStores_submit_before_dependency : (Permitted referenceClient.step Follows ⟨LocalState.default, []⟩
        (deferredDependency exampleReferenceCall 5) ∧
      ¬referenceClient.SubmitsInOrder (final referenceClient.step ⟨LocalState.default, []⟩
        (deferredDependency exampleReferenceCall 5)).state) ∧
    (Permitted sqliteClient.step Follows ⟨SqliteTables.empty, []⟩
        (deferredDependency exampleSqliteCall 5) ∧
      ¬sqliteClient.SubmitsInOrder (final sqliteClient.step ⟨SqliteTables.empty, []⟩
        (deferredDependency exampleSqliteCall 5)).state) ∧
    (Permitted stoolapClient.step Follows ⟨StoolapTables.empty, []⟩
        (deferredDependency exampleStoolapCall 5) ∧
      ¬stoolapClient.SubmitsInOrder (final stoolapClient.step ⟨StoolapTables.empty, []⟩
        (deferredDependency exampleStoolapCall 5)).state) := by
  refine ⟨⟨by decide +kernel, ?_⟩, ⟨by decide +kernel, ?_⟩, by decide +kernel, ?_⟩
  -- At time 4, one time unit before the retry.
  · have handed : referenceClient.pendingOperations 4 10 (final referenceClient.step
        ⟨LocalState.default, []⟩ (deferredDependency exampleReferenceCall 5)).state =
          .ok [queuedOperation 2 [⟨1⟩]] := by decide +kernel
    exact not_submitsInOrder handed (List.mem_singleton.mpr rfl) (by decide +kernel)
  · have handed : sqliteClient.pendingOperations 4 10 (final sqliteClient.step
        ⟨SqliteTables.empty, []⟩ (deferredDependency exampleSqliteCall 5)).state =
          .ok [queuedOperation 2 [⟨1⟩]] := by decide +kernel
    exact not_submitsInOrder handed (List.mem_singleton.mpr rfl) (by decide +kernel)
  · have handed : stoolapClient.pendingOperations 4 10 (final stoolapClient.step
        ⟨StoolapTables.empty, []⟩ (deferredDependency exampleStoolapCall 5)).state =
          .ok [queuedOperation 2 [⟨1⟩]] := by decide +kernel
    exact not_submitsInOrder handed (List.mem_singleton.mpr rfl) (by decide +kernel)

end Aequora.Store
