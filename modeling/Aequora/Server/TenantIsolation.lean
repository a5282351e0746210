import Aequora.Server.Bootstrap
import Aequora.Server.StoreCalls

/-! Tenant isolation of the server. Every store access is a call under the authenticated tenant,
whatever identities the request names. -/

namespace Aequora.Server

open Aequora.Base Aequora.Protocol Aequora.Store Aequora.Authority Program

/-- Every access of the program is a call under the tenant. -/
abbrev Isolated (tenant : TenantId) {Result : Type} (program : Program InMemoryAuthoritativeStore Result) : Prop :=
  program.Each (TenantAccess tenant)

theorem ExchangeCall.tenantAccess (call : ExchangeCall tenant Answer act) : TenantAccess tenant Answer act := by
  cases call with
  | look read => exact TenantAccess.look read
  | readChangesAfter scope sequence limit maxPayloadBytes =>
    exact TenantAccess.readChangesAfter scope sequence limit maxPayloadBytes
  | commitOperation own => exact TenantAccess.commitOperation own

namespace SyncServer
variable (server : SyncServer) (environment : Environment) (auth : AuthContext)

theorem process_isolated (request : SyncRequest) : Isolated auth.tenantId (server.process environment auth request) :=
  (server.process_calls environment auth request).mono fun _ _ call => call.tenantAccess

theorem processBootstrap_isolated (environment : BootstrapEnvironment) (request : BootstrapRequest) :
    Isolated auth.tenantId (server.processBootstrap environment auth request) := by
  have selected : Isolated auth.tenantId (selectSnapshot environment auth request) := by
    unfold selectSnapshot
    split
    · exact each_pure _
    · refine (each_atomically ?_).bind fun _ => each_pure _
      exact TenantAccess.createSnapshotInTimeline ..
  unfold processBootstrap
  split
  · exact each_pure _
  · refine selected.bind fun snapshotId => ?_
    refine (each_atomically ?_).bind fun _ => each_pure _
    exact TenantAccess.readSnapshot ..

end SyncServer

/-- What isolation under the tenant asks of a program: agreeing stores give one answer and still
agree, and no entry of another tenant changes. -/
structure IsolatedRun (tenant : TenantId) {Result : Type}
    (program : Program InMemoryAuthoritativeStore Result) : Prop where
  answers : ∀ left right failures, left.view tenant = right.view tenant →
    (program.run ⟨left, failures⟩).2 = (program.run ⟨right, failures⟩).2
  agrees : ∀ left right failures, left.view tenant = right.view tenant →
    (program.run ⟨left, failures⟩).1.state.view tenant = (program.run ⟨right, failures⟩).1.state.view tenant
  others : ∀ state failures other, other ≠ tenant →
    (program.run ⟨state, failures⟩).1.state.view other = state.view other ∧
      (program.run ⟨state, failures⟩).1.state.auditOf other = state.auditOf other

theorem IsolatedRun.of_isolated (isolated : Isolated tenant program) :
    IsolatedRun tenant program where
  answers left right failures same := by
    have start : SameTenant tenant ⟨left, failures⟩ ⟨right, failures⟩ := ⟨same, rfl⟩
    exact ((isolated.mono fun _ _ access => access.alike).run_alike start).1
  agrees left right failures same := by
    have start : SameTenant tenant ⟨left, failures⟩ ⟨right, failures⟩ := ⟨same, rfl⟩
    exact ((isolated.mono fun _ _ access => access.alike).run_alike start).2.view
  others state failures := by
    have framed := isolated.mono fun _ _ access => access.others
    exact framed.run_framed (OthersKept.refl tenant) OthersKept.trans ⟨state, failures⟩

/-- Exchanges and bootstraps are isolated under the tenant they are authenticated for. -/
theorem SyncServer.tenants_isolated (server : SyncServer) (auth : AuthContext) :
    (∀ environment request, IsolatedRun auth.tenantId (server.process environment auth request)) ∧
      ∀ environment request,
        IsolatedRun auth.tenantId (server.processBootstrap environment auth request) := by
  constructor
  · intro environment request
    exact .of_isolated (server.process_isolated environment auth request)
  · intro environment request
    exact .of_isolated (server.processBootstrap_isolated auth environment request)

end Aequora.Server
