import Aequora.Server.Process
import Aequora.Store.Tenant

/-! The store calls of an exchange: looks at the entries of the authenticated tenant, reads of its
journal, and commits under it. -/

namespace Aequora.Server

open Aequora.Base Aequora.Protocol Aequora.Store Aequora.Authority Program

inductive ExchangeCall (tenant : TenantId) : (Answer : Type) →
    (InMemoryAuthoritativeStore → InMemoryAuthoritativeStore × Answer) → Prop
  | look (read : TenantView → Answer) :
      ExchangeCall tenant Answer fun store => (store, read (store.state.view tenant))
  | readChangesAfter (scope : SyncScopeId) (sequence : Sequence) (limit maxPayloadBytes : Nat) :
      ExchangeCall tenant ChangePage fun store =>
        (store, store.readChangesAfter tenant scope sequence limit maxPayloadBytes)
  | commitOperation (own : commit.tenantId = tenant) :
      ExchangeCall tenant (Except StoreError CommitOutcome) fun store => store.commitOperation commit

/-- Every access of the program is one of the calls. -/
abbrev Calls (tenant : TenantId) {Result : Type} (program : Program InMemoryAuthoritativeStore Result) : Prop :=
  program.Each (ExchangeCall tenant)

section Calls
theorem calls_look_bind (read : TenantView → Answer)
    (continued : ∀ answer, Calls tenant (rest answer)) :
    Calls tenant ((observe fun store => read (store.state.view tenant)) >>= rest) :=
  (each_atomically (ExchangeCall.look read)).bind continued

theorem dependenciesCompleted_calls (completed : Finset OperationId) (dependencies : List OperationId) :
    Calls tenant (dependenciesCompleted tenant completed dependencies) := by
  induction dependencies with
  | nil => exact each_pure true
  | cons dependency _ ih =>
    unfold dependenciesCompleted
    split
    · exact ih
    · apply calls_look_bind fun view => view.ledger dependency
      intro _
      split
      · exact each_pure false
      · exact ih

end Calls

namespace SyncServer
variable (server : SyncServer) (environment : Environment) (auth : AuthContext)

theorem retryOperation_calls (operation : OperationEnvelope) (previous : OperationAck) :
    Calls auth.tenantId (retryOperation auth operation previous) := by
  apply calls_look_bind fun view => view.operationLineages operation.operationId
  intro _
  split
  · exact each_pure _
  · exact each_pure _

section
variable (index : Nat) (operation : OperationEnvelope)
include index operation

theorem executeOperation_calls (scopeId : SyncScopeId)
    (context : AuthorityCommitContext) :
    Calls auth.tenantId
      (server.executeOperation environment index auth operation scopeId context) := by
  apply calls_look_bind fun view => view.entities operation.entity
  intro _
  dsimp only
  split
  · exact each_pure _
  · exact each_pure _
  · split
    · exact each_pure _
    · refine (each_atomically ?_).bind fun _ => each_pure _
      exact ExchangeCall.commitOperation rfl

section
variable (completed : Finset OperationId) (scopeId : SyncScopeId)

theorem processFresh_calls (context : AuthorityCommitContext) :
    Calls auth.tenantId
      (server.processFresh environment index auth operation completed scopeId context) := by
  refine (dependenciesCompleted_calls completed operation.metadata.dependencies).bind fun ready => ?_
  split
  · exact each_pure _
  · split
    · exact each_pure _
    · exact server.executeOperation_calls environment auth index operation scopeId context

theorem processOperation_calls :
    Calls auth.tenantId
      (server.processOperation environment index auth operation completed scopeId) := by
  unfold processOperation
  split
  · exact each_pure _
  · split
    · exact each_pure _
    · apply calls_look_bind fun view => view.ledger operation.operationId
      intro previous
      cases previous with
      | some previous => exact retryOperation_calls auth operation previous
      | none => exact server.processFresh_calls environment auth index operation completed scopeId _

end

end

theorem processOperations_calls (scopeId : SyncScopeId) (outcomes : Outcomes)
    (operations : List (Nat × OperationEnvelope)) :
    Calls auth.tenantId (server.processOperations environment auth scopeId outcomes operations) := by
  induction operations generalizing outcomes with
  | nil => exact each_pure _
  | cons entry _ ih =>
    obtain ⟨index, operation⟩ := entry
    refine (server.processOperation_calls environment auth index operation outcomes.completed
      scopeId).bind fun result => ?_
    cases result with
    | error _ => exact each_pure _
    | ok result => exact ih (outcomes.add result)

theorem process_calls (request : SyncRequest) : Calls auth.tenantId (server.process environment auth request) := by
  unfold process
  split
  · exact each_pure _
  · split
    · exact each_pure _
    · exact each_pure _
    · apply calls_look_bind fun view => (view.journalFloors request.session.scopeId).getD 0
      intro _
      split
      · exact each_pure _
      · split
        · exact each_pure _
        · refine (server.processOperations_calls environment auth request.session.scopeId .empty
            _).bind fun processed => ?_
          cases processed with
          | error _ => exact each_pure _
          | ok _ =>
            refine (each_atomically ?_).bind fun _ => each_pure _
            exact ExchangeCall.readChangesAfter ..

end SyncServer

end Aequora.Server
