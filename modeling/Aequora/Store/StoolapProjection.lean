import Aequora.Store.StoolapDelivery
import Aequora.Store.StoolapOutbox

/-! The two levels of the Stoolap outbox: appending, sending and retrying are the same calls with
and without the delivery columns. -/

namespace Aequora.Store

open Std Aequora.Base Aequora.Protocol OutboxTable ExtTreeMap StoolapTables StoolapEngine

def DeliveryRow.bare (row : DeliveryRow) : OutboxRow String Unit where
  operation := row.operation
  order := row.order
  state := row.state
  terminalDetail := row.terminalDetail
  schedule := ()

namespace DeliveryTable
variable (outbox : DeliveryTable)

def bare : OutboxTable String Unit := outbox.map fun _ row => DeliveryRow.bare row

theorem bare_lookup (operation : OperationId) :
    (bare outbox)[operation]? = (outbox[operation]?).map DeliveryRow.bare := getElem?_map

theorem mem_bare : operation ∈ bare outbox ↔ operation ∈ outbox := by
  rw [← isSome_getElem?_iff_mem, bare_lookup, Option.isSome_map,
    isSome_getElem?_iff_mem]

theorem bare_insert (operation : OperationId) (row : DeliveryRow) :
    bare (outbox.insert operation row) = (bare outbox).insert operation (DeliveryRow.bare row) := by
  apply ext_getElem?
  intro _
  rw [bare_lookup, lookup_insert, lookup_insert, bare_lookup]
  split
  · rfl
  · rfl

theorem bare_nextOrder : nextOrder (bare outbox) = nextOrder outbox := by
  unfold nextOrder listing bare
  rw [toList_map, List.map_map, List.map_map, List.map_map]
  rfl

theorem bare_insertRow (operation : OperationEnvelope) (delivery : Delivery) :
    bare (insertRow outbox operation delivery) =
      insertRow (bare outbox) operation () := by
  unfold insertRow
  rw [bare_insert, bare_nextOrder]
  rfl

def envelope (operation : OperationId) : Option OperationEnvelope :=
  (outbox[operation]?).map OutboxRow.operation

end DeliveryTable

open DeliveryTable

/-- The tables of the client with the queue in the place of their own. -/
def StoolapTables.withQueue (tables : StoolapTables) (queue : StoolapQueue) : StoolapTables :=
  { tables with
    outbox := bare queue.outbox
    retrySchedule := queue.retrySchedule
    scopeQuarantine := queue.scopeQuarantine }

/-- A client's call as the engine answers it over the given outbox. -/
def StoolapEngine.call (engine : StoolapEngine) (outbox : DeliveryTable) (around : StoolapSurroundings)
    (encodeScopeState : Scope.LocalScopeState → Except StoreError Unit) : StoolapCall :=
  { around with
    encodeOperation := fun operation => do
      engine.encode operation
      discard (engine.hash operation)
    hashOperation := fun operation =>
      (DeliveryTable.envelope outbox operation).elim (.ok ()) fun envelope => discard (engine.hash envelope)
    encodeScopeState }

namespace StoolapQueue
variable (engine : StoolapEngine) (queue : StoolapQueue) (tables : StoolapTables)
variable (around : StoolapSurroundings) (encodeScopeState : Scope.LocalScopeState → Except StoreError Unit)

theorem insertOutbox_withQueue (operation : OperationEnvelope) :
    (queue.insertOutbox engine operation).map tables.withQueue =
      (tables.withQueue queue).appendOperation (engine.call queue.outbox around encodeScopeState)
        operation := by
  unfold insertOutbox appendOperation
  simp only [withQueue, mem_bare]
  split
  · rfl
  · simp only [call]
    cases engine.encode operation with
    | error error => rfl
    | ok =>
      cases engine.hash operation with
      | error _ => rfl
      | ok digest =>
        exact congrArg (fun outbox => Except.ok { tables with
          outbox, retrySchedule := queue.retrySchedule, scopeQuarantine := queue.scopeQuarantine })
          (bare_insertRow queue.outbox operation (.new digest))

section Marking
variable {engine} {outbox : DeliveryTable}
/-- Marking a row is moving it and hashing its envelope. -/
theorem markRow_bare (same : envelope outbox = envelope start) :
    (markRow engine missing terminal next outbox operation).map bare = (do
      let moved ← moveRow (bare outbox) missing terminal next id operation
      (engine.call start around encodeScopeState).hashOperation operation
      return moved) := by
  unfold markRow moveRow call
  dsimp only
  rw [← same, bare_lookup, envelope]
  cases outbox[operation]? with
  | none => rfl
  | some row =>
    by_cases replayable : row.state.isReplayable
    · simp only [Option.map_some, DeliveryRow.bare, replayable, if_true, Option.elim_some]
      cases engine.hash row.operation with
      | error _ => rfl
      | ok _ => exact congrArg Except.ok (bare_insert outbox operation _)
    · simp only [Option.map_some, DeliveryRow.bare, replayable]
      rfl

theorem markRow_envelope (moved : markRow engine missing terminal next outbox operation = .ok marked) :
    envelope marked = envelope outbox := by
  unfold markRow at moved
  split at moved
  · cases moved
  · rename_i row found
    split at moved
    · obtain ⟨_, -, built⟩ := bind_eq_ok_iff.mp moved
      cases built
      funext other
      rw [envelope, envelope, lookup_insert]
      split
      · rename_i here
        rw [← here, found]
        rfl
      · rfl
    · cases moved

theorem foldlM_markRow_bare (operations : List OperationId) :
    (operations.foldlM (markRow engine missing terminal next) start).map bare =
      operations.foldlM (fun table operation => do
        let moved ← moveRow table missing terminal next id operation
        (engine.call start around encodeScopeState).hashOperation operation
        return moved) (bare start) := by
  apply foldlM_map bare fun outbox =>
    envelope outbox = envelope start
  · intro outbox operation same
    exact markRow_bare around encodeScopeState same
  · intro _ _ _ same moved
    exact (markRow_envelope moved).trans same
  · rfl

end Marking

theorem transitionOperations_withQueue (operations : List OperationId) (next : OutboxState) :
    (queue.transitionOperations engine around.fence operations next).map tables.withQueue =
      (tables.withQueue queue).transitionOperations (engine.call queue.outbox around encodeScopeState)
        operations next := by
  have marked : (operations.foldlM (markRow engine (.permanent "operation is missing or terminal")
      (.permanent "operation is missing or terminal") next) queue.outbox).map bare =
        operations.foldlM (transitionOperation
          (engine.call queue.outbox around encodeScopeState) next) (bare queue.outbox) :=
    foldlM_markRow_bare around encodeScopeState operations
  unfold transitionOperations StoolapTables.transitionOperations
  have fence : (engine.call queue.outbox around encodeScopeState).fence = around.fence := rfl
  rw [fence]
  cases around.fence with
  | error error => rfl
  | ok =>
    change _ = (operations.foldlM _ (bare queue.outbox) >>= _)
    rw [← marked]
    cases operations.foldlM (markRow engine _ _ next) queue.outbox with
    | error _ => rfl
    | ok _ => rfl

theorem scheduleOne_withQueue (same : envelope queue.outbox = envelope start) :
    (scheduleOne engine time queue operation).map tables.withQueue =
      (tables.withQueue queue).scheduleOne (engine.call start around encodeScopeState) time operation := by
  -- The coarse call moves, hashes and writes; the first two are what marking does.
  have regrouped : (tables.withQueue queue).scheduleOne (engine.call start around encodeScopeState) time
      operation = (do
        let moved ← moveRow (bare queue.outbox)
          (.permanent "operation is missing from the outbox")
          (.permanent "terminal outbox operation cannot transition back to retry") .retry id operation
        (engine.call start around encodeScopeState).hashOperation operation
        return moved) >>= fun outbox => pure { tables.withQueue queue with
          outbox
          retrySchedule := queue.retrySchedule.insert operation
            { attemptCount := (queue.retrySchedule[operation]?).elim 1 fun retry => retry.attemptCount + 1
              nextAttemptUnixMs := time } } := by
    rw [bind_assoc]
    simp only [bind_assoc, pure_bind]
    rfl
  rw [regrouped, ← markRow_bare around encodeScopeState same]
  unfold scheduleOne
  cases markRow engine _ _ .retry queue.outbox operation with
  | error _ => rfl
  | ok _ => rfl

theorem scheduleRetry_withQueue (operations : List OperationId) (nextAttempt : Nat) :
    (queue.scheduleRetry engine around.fence operations nextAttempt).map tables.withQueue =
      (tables.withQueue queue).scheduleRetry (engine.call queue.outbox around encodeScopeState) operations
        nextAttempt := by
  unfold scheduleRetry StoolapTables.scheduleRetry
  cases toI64 nextAttempt (stoolapRange "retry timestamp") with
  | error error => rfl
  | ok _ =>
    have fence : (engine.call queue.outbox around encodeScopeState).fence = around.fence := rfl
    simp only [bind, Except.bind, fence]
    cases around.fence with
    | error _ => rfl
    | ok =>
      apply foldlM_map tables.withQueue fun later =>
        envelope later.outbox = envelope queue.outbox
      · intro later operation same
        exact scheduleOne_withQueue engine later tables around encodeScopeState same
      · intro _ _ _ same scheduled
        obtain ⟨_, moved, built⟩ := bind_eq_ok_iff.mp scheduled
        cases built
        exact (markRow_envelope moved).trans same
      · rfl

end StoolapQueue

end Aequora.Store
