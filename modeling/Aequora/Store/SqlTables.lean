import Aequora.Store.LocalReference

/-! What the SQL adapters share: signed integer columns, rows of the outbox, and the
application's functions called inside a transaction. -/

namespace Aequora.Store

open Std Aequora.Base Aequora.Protocol

/-- What a call draws from the application and the encoder. -/
structure SqlSurroundings (Detail : Type) where
  applyChange : SyncScopeId → RemoteChange → Except StoreError Unit
  applySnapshotEntity : SyncScopeId → SnapshotEntity → Except StoreError Unit
  encodeAck : OperationAck → Except StoreError Detail
  encodeRejection : OperationRejection → Except StoreError Detail
  encodeConflict : Conflict → Except StoreError Detail

def i64Max : Nat := 9223372036854775807

def toI64 (value : Nat) (refused : StoreError) : Except StoreError Nat :=
  if value ≤ i64Max then .ok value else .error refused

theorem toI64_eq_ok : toI64 value refused = .ok stored ↔ value ≤ i64Max ∧ stored = value := by
  unfold toI64
  split <;> simp_all [eq_comm]

/-- One row of an outbox, with the columns of the adapter's own schedule of retries. -/
structure OutboxRow (Detail Schedule : Type) where
  operation : OperationEnvelope
  order : Nat
  state : OutboxState
  terminalDetail : Option Detail
  schedule : Schedule
deriving DecidableEq

abbrev OutboxTable (Detail Schedule : Type) := ExtTreeMap OperationId (OutboxRow Detail Schedule)

/-- Update the outbox row of an operation, if there is one. -/
def updateTerminal {Detail Schedule : Type} (outbox : OutboxTable Detail Schedule)
    (operation : OperationId) (state : OutboxState) (detail : Detail) : OutboxTable Detail Schedule :=
  match outbox[operation]? with
  | none => outbox
  | some row => outbox.insert operation { row with state, terminalDetail := some detail }

namespace ScopeTable
variable {table : ScopeTable}

def putRow (table : ScopeTable) (scope : SyncScopeId) (refused : StoreError) (entity : SnapshotEntity) :
    Except StoreError ScopeTable := do
  let _ ← toI64 entity.version refused
  return table.put scope [entity]

def rows (table : ScopeTable) (scope : SyncScopeId) : List SnapshotEntity :=
  (table.filter fun key _ => key.1 == scope).values

theorem foldlM_putRow (written : entities.foldlM (putRow · scope refused) table = .ok last) :
    last = table.put scope entities := by
  induction entities generalizing table with
  | nil => cases written; rfl
  | cons _ _ ih =>
    simp only [List.foldlM_cons, putRow, bind_eq_ok_iff] at written
    obtain ⟨_, ⟨_, _, one⟩, others⟩ := written
    cases one
    exact ih others

end ScopeTable

end Aequora.Store
