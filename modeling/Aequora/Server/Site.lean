import Aequora.Authority.Fencing
import Aequora.Base.Access
import Aequora.Server.Bootstrap
import Aequora.Store.SnapshotPages

/-! The authority and the store side by side, with other actions on either of them between the
accesses of a request. -/

namespace Aequora.Server

open Aequora.Base Aequora.Protocol Aequora.Store Aequora.Authority AuthorityController Program Run

structure Site where
  controller : AuthorityController
  store : InMemoryAuthoritativeStore
  capturedIn : SnapshotKey → Option AuthorityEpoch

/-- The site after the store was changed; a new snapshot was captured in the current epoch. -/
def Site.withStore (site : Site) (store : InMemoryAuthoritativeStore) : Site :=
  { site with
    store
    capturedIn := fun key =>
      if store.state.snapshots[key]? = site.store.state.snapshots[key]? then site.capturedIn key
      else some site.controller.state.epoch }

def Site.epoch (site : Site) : AuthorityEpoch := site.controller.state.epoch

inductive SiteAction where
  | authority (action : AuthorityAction)
  | store (action : StoreAction)

def Site.step (site : Site) : SiteAction → Site
  | .authority action => { site with controller := site.controller.step action }
  | .store action => site.withStore (site.store.step action)

def SiteAction.onAuthority : SiteAction → Option AuthorityAction
  | .authority action => some action
  | .store _ => none

def SiteAction.Captures (key : SnapshotKey) : SiteAction → Prop
  | .store (.createSnapshot tenant _ snapshotId) => (tenant, snapshotId) = key
  | _ => False

namespace SyncServer
variable (server : SyncServer)

/-- An exchange: sample the authority state, then process the request on the store. -/
def exchangeAt (environment : Environment) (auth : AuthContext) (request : SyncRequest) :
    Program Site (Except ServerError SyncResponse) := do
  let authority ← observe fun site => site.controller.state
  (server.process { environment with authority } auth request).within Site.store Site.withStore

/-- A bootstrap: sample the authority state, validate the startup, then process the request. -/
def bootstrapAt (environment : BootstrapEnvironment) (auth : AuthContext) (request : BootstrapRequest) :
    Program Site (Except ServerError BootstrapResponse) := do
  let authority ← observe fun site => site.controller.state
  let startupAuthority ← observe fun site => site.controller
  (server.processBootstrap
    { environment with authority, startupAuthority } auth
    request).within Site.store Site.withStore

end SyncServer

section
variable (controller : AuthorityController)

section
variable (actions : List AuthorityAction)

/-- No call of the list, made one after the other, changes the epoch. -/
def EpochKept : Prop :=
  Permitted step
    (fun controller action => (controller.step action).state.epoch = controller.state.epoch)
    controller actions

theorem epoch_le_step (action : AuthorityAction) :
    controller.state.epoch ≤ (controller.step action).state.epoch :=
  (step_effect controller action).epoch_le

theorem epoch_le_final :
    controller.state.epoch ≤ (final step controller actions).state.epoch :=
  le_final epoch_le_step controller actions

theorem epochKept_iff :
    EpochKept controller actions ↔
      (final step controller actions).state.epoch = controller.state.epoch := by
  induction actions generalizing controller with
  | nil => exact iff_of_true trivial rfl
  | cons action rest ih =>
    have first := epoch_le_step controller action
    have later := epoch_le_final (controller.step action) rest
    rw [EpochKept, Permitted, final_cons]
    constructor
    · rintro ⟨now, kept⟩
      exact ((ih _).mp kept).trans now
    · intro same
      have now : (controller.step action).state.epoch = controller.state.epoch := by
        rw [same] at later
        exact Nat.le_antisymm later first
      exact ⟨now, (ih _).mpr (same.trans now.symm)⟩

end

end

theorem Site.step_controller (site : Site) (action : SiteAction) :
    (site.step action).controller =
      action.onAuthority.elim site.controller site.controller.step := by
  cases action with
  | authority action => rfl
  | store _ => rfl

theorem Site.final_controller (site : Site) (actions : List SiteAction) :
    (final step site actions).controller =
      final AuthorityController.step site.controller (actions.filterMap SiteAction.onAuthority) :=
  aspect_final step_controller site actions

theorem Site.epoch_le_final (site : Site) (actions : List SiteAction) :
    site.epoch ≤ (final step site actions).epoch := by
  rw [epoch, epoch, final_controller]
  exact Server.epoch_le_final ..

theorem Site.within_controller (program : Program InMemoryAuthoritativeStore Result) :
    (program.within Site.store withStore).Each
      (Framed fun before after => after.controller = before.controller) := by
  apply each_within
  intro _ _
  rfl

theorem Site.withStore_kept {site : Site} {store : InMemoryAuthoritativeStore}
    (same : store.state.snapshots[key]? = site.store.state.snapshots[key]?) :
    (site.withStore store).capturedIn key = site.capturedIn key :=
  if_pos same

theorem Site.step_kept {site : Site} {action : SiteAction} (others : ¬action.Captures key) :
    (site.step action).store.state.snapshots[key]? = site.store.state.snapshots[key]? ∧
      (site.step action).capturedIn key = site.capturedIn key := by
  cases action with
  | authority action => exact ⟨rfl, rfl⟩
  | store action =>
    have outside : ¬action.Captures key := by
      cases action with
      | createSnapshot => exact others
      | _ => exact id
    have same : (site.store.step action).state.snapshots[key]? = site.store.state.snapshots[key]? :=
      InMemoryAuthoritativeStore.step_snapshot_kept outside
    exact ⟨same, withStore_kept same⟩

theorem Site.final_kept {site : Site} (others : ∀ action ∈ actions, ¬action.Captures key) :
    (final step site actions).store.state.snapshots[key]? = site.store.state.snapshots[key]? ∧
      (final step site actions).capturedIn key = site.capturedIn key := by
  induction actions generalizing site with
  | nil => exact ⟨rfl, rfl⟩
  | cons _ _ ih =>
    obtain ⟨now, later⟩ := List.forall_mem_cons.mp others
    obtain ⟨snapshot, captured⟩ := step_kept now
    obtain ⟨last, remembered⟩ := ih later
    exact ⟨last.trans snapshot, remembered.trans captured⟩

end Aequora.Server
