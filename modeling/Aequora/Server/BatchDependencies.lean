import Aequora.Server.Finality

/-! Batches and dependencies over whole runs. An operation enters the ledger only behind everything
it depends on. -/

namespace Aequora.Server

open Aequora.Base Aequora.Protocol Aequora.Store Aequora.Authority Run

/-- The operation appears exactly once among the results of the response. -/
def ReportedOnce (response : SyncResponse) (id : OperationId) : Prop :=
  (reportedIds response.acknowledged response.rejected response.conflicts).count id = 1

/-- A deployment that starts over the store a history of calls has left. -/
def SyncServer.deployed (server : SyncServer) (history : List StoreAction)
    (events : List (Schedule Call CommitFailPoint)) : Deployment :=
  final server.step ⟨final InMemoryAuthoritativeStore.step .default history, []⟩ events

/-- In this step the ledger gains a result of the tenant. -/
def SyncServer.Records (server : SyncServer) (pool : Deployment) (event : Schedule Call CommitFailPoint)
    (tenant : TenantId) (id : OperationId) : Prop :=
  ¬Completed tenant pool.shared.state id ∧ Completed tenant (server.step pool event).shared.state id

theorem Answered.reportedOnce (answered : Answered auth operations start response store)
    (member : operation ∈ operations) : ReportedOnce response operation.operationId := by
  have submitted : operation.operationId ∈ operations.map OperationEnvelope.operationId :=
    List.mem_map_of_mem member
  rw [ReportedOnce, answered.reported.count_eq]
  exact List.count_eq_one_of_mem answered.distinct submitted

namespace SyncServer
variable (server : SyncServer) (history : List StoreAction)

theorem deployed_append (before after : List (Schedule Call CommitFailPoint)) :
    server.deployed history (before ++ after) =
      final server.step (server.deployed history before) after :=
  final_append ..

theorem deployed_verified (events : List (Schedule Call CommitFailPoint)) :
    (server.deployed history events).Verified server.exchangeContract Onward 0 := by
  apply server.run_verified
  exact (InMemoryAuthoritativeStore.default.run_extends history).keyed wellKeyed_default

variable {server history}

theorem missing_before {id : OperationId}
    (missing : ¬Completed tenant (server.deployed history (before ++ after)).shared.state id) :
    ¬Completed tenant (server.deployed history before).shared.state id := by
  intro completed
  apply missing
  rw [deployed_append]
  have moved := (server.deployed_verified history before).run_rely interference
    server.exchangeContract_fulfilled after
  exact moved.completed completed

variable (server history)

/-- Whatever calls interleave over whatever store history: a response that continues reports each
submitted operation once; every new ledger entry belongs to one submitted operation of the call
that advanced, whose dependencies were all in the ledger; and no call commits an operation while
one of its dependencies is missing. -/
theorem batch_dependencies (events : List (Schedule Call CommitFailPoint)) :
    (∀ index call response,
      (server.deployed history events).finished index = some (call, .ok response) →
      response.directive = .continue →
      ∀ operation ∈ call.request.operations, ReportedOnce response operation.operationId) ∧
    (∀ before event after, events = before ++ event :: after → ∀ tenant id,
      server.Records (server.deployed history before) event tenant id →
      ∃ auth operation, auth.tenantId = tenant ∧ operation.operationId = id ∧
        server.CommitsIn auth operation (server.deployed history before) event) ∧
    (∀ before event after, events = before ++ event :: after → ∀ auth operation,
      server.CommitsIn auth operation (server.deployed history before) event →
      ∀ dependency ∈ operation.metadata.dependencies,
        Completed auth.tenantId (server.deployed history before).shared.state dependency) ∧
    ∀ auth operation,
      ∀ dependency ∈ operation.metadata.dependencies,
        ¬Completed auth.tenantId (server.deployed history events).shared.state dependency →
        Permitted server.step (fun pool event => ¬server.CommitsIn auth operation pool event)
          (server.deployed history []) events := by
  refine ⟨?_, ?_, ?_, ?_⟩
  · intro index call response finished continued operation member
    obtain ⟨_, answered⟩ := (server.deployed_verified history events).finished interference
      index.zero_le finished response rfl continued
    exact answered.reportedOnce member
  · intro before event after split _ _ ⟨missing, recorded⟩
    obtain ⟨index, call, program, advanced, tracked, sameTenant, -, operation, member, sameId, -⟩ :=
      recorded_accepts (server.deployed_verified history before) missing recorded
    subst sameTenant sameId
    exact ⟨call.auth, operation, rfl, rfl, index, call, program, advanced, tracked, rfl, member,
      missing, recorded⟩
  · intro before event after split auth operation commits
    exact (commits.accepts (server.deployed_verified history before)).dependencies
  · intro _ _ dependency needed missing
    apply permitted_iff_cut.mpr
    intro before _ _ split commits
    rw [split] at missing
    have completed := (CommitsIn.accepts (server.deployed_verified history before) commits).dependencies
      dependency needed
    exact missing_before missing completed

end SyncServer

end Aequora.Server
