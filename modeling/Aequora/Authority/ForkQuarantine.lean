import Aequora.Authority.Fencing
import Aequora.SyncModel.Safety

/-! Fork quarantine. In the executable model only a promotion ends it; in the controller, which
keeps it in the runtime mode, only a completed recovery does. -/

namespace Aequora.Authority

open Aequora.Base Aequora.Protocol Aequora.Store Run

def AuthorityAction.completesRecovery : AuthorityAction → Bool
  | .completeRecovery .. => true
  | _ => false

namespace AuthorityController
variable {controller : AuthorityController}

section
variable (controller : AuthorityController)

/-- No commit context is issued. -/
def RefusesWrites : Prop :=
  ∀ context, controller.authorizeWrite ≠ .ok context

/-- The call is not a recovery that succeeds. -/
def NotRecovered (action : AuthorityAction) : Prop :=
  ¬(action.completesRecovery = true ∧ controller.Succeeds action)

instance (controller : AuthorityController) (action : AuthorityAction) : Decidable (controller.NotRecovered action) :=
  inferInstanceAs (Decidable (¬_))

def forked (own peer : JournalCheckpoint) (updatedAtUnixMs : Nat) :
    AuthorityController :=
  (controller.observeCheckpoint own peer updatedAtUnixMs).1

end

theorem forked_runtimeMode (fork : compareCheckpoints own peer = .forkDetected) :
    (controller.forked own peer updatedAtUnixMs).state.runtimeMode = .quarantined := by
  simp [forked, observeCheckpoint, fork]

theorem refusesWrites_of_not_serving (blocked : controller.state.runtimeMode ≠ .serving) : controller.RefusesWrites :=
  fun _ issued => blocked (authorizeWrite_ok issued).2.1

theorem authorizeWrite_of_serving (anchored : controller.ensureExternalEpoch = .ok ())
    (primary : controller.state.role = .primary) (serving : controller.state.runtimeMode = .serving) :
    controller.authorizeWrite = .ok
      { authorityId := controller.state.authorityId
        epoch := controller.state.epoch
        instanceId := controller.state.instanceId
        fenceToken := controller.state.fenceToken } := by
  simp only [authorizeWrite, anchored, primary, serving]
  rfl

theorem authorizeWrite_of_recovered (completes : action.completesRecovery = true)
    (succeeded : controller.Succeeds action) : ¬(controller.step action).RefusesWrites := by
  have effect := controller.step_effect action
  rw [show (controller.perform action).2 = .ok () from succeeded] at effect
  generalize controller.step action = next at effect
  cases effect with
  | serving _ anchored primary =>
    -- The anchor is checked against the epoch, which a recovery leaves alone.
    intro refused
    exact refused _ (authorizeWrite_of_serving anchored primary rfl)
  | _ => cases completes

section
variable (blocked : controller.state.runtimeMode ≠ .serving)
include blocked

theorem step_serving_iff :
    (controller.step action).state.runtimeMode ≠ .serving ↔ controller.NotRecovered action := by
  constructor
  · rintro still ⟨completes, succeeded⟩
    exact authorizeWrite_of_recovered completes succeeded (refusesWrites_of_not_serving still)
  · intro unrecovered served
    obtain ⟨succeeded, _, _, rfl⟩ :=
      (controller.step_effect action).serving_of_change blocked served
    exact unrecovered ⟨rfl, succeeded⟩

theorem throughout_not_serving_iff :
    Throughout step (fun state => state.state.runtimeMode ≠ .serving) controller actions ↔
      Permitted step NotRecovered controller actions :=
  throughout_iff_permitted blocked fun _ _ _ _ before => step_serving_iff before

theorem throughout_refusesWrites_iff : Throughout step RefusesWrites controller actions ↔
      Permitted step NotRecovered controller actions := by
  constructor
  · intro refused
    refine permitted_iff_cut.mpr fun before action after split => ?_
    rintro ⟨completes, succeeded⟩
    have cut : actions = (before ++ [action]) ++ after := by simp [split]
    have next := throughout_iff_cut.mp refused (before ++ [action]) after cut
    rw [final_append] at next
    exact authorizeWrite_of_recovered completes succeeded next
  · intro unrecovered
    exact ((throughout_not_serving_iff blocked).mpr unrecovered).mono
      fun _ => refusesWrites_of_not_serving

end

end AuthorityController

end Aequora.Authority

namespace Aequora.SyncModel

open Aequora.Base

/-- The model's authority is held back by a detected fork. -/
structure ServerModel.Quarantined (server : ServerModel) : Prop where
  fork : server.forkQuarantined = true
  writes : server.writesEnabled = false

/-- The action is not a promotion that succeeds. -/
def Model.NotPromoted (blake3 : List UInt8 → Vector UInt8 32) (model : Model) (action : ModelAction) : Prop :=
  ¬(action.isPromotion = true ∧ model.Accepts blake3 action)

theorem Promoted.keeps_quarantine (ended : Promoted server newInstance action next result)
    (quarantined : server.Quarantined) (failed : result ≠ .ok ()) : next.Quarantined := by
  cases ended with
  | fenceExhausted => exact ⟨quarantined.fork, quarantined.writes⟩
  | epochExhausted => exact ⟨quarantined.fork, quarantined.writes⟩
  | lossless => exact absurd rfl failed
  | dataLoss => exact absurd rfl failed

theorem Effect.keeps_quarantine (effect : Effect model action next result)
    (quarantined : model.server.Quarantined) (unpromoted : action.isPromotion = true → result ≠ .ok ()) :
    next.server.Quarantined := by
  cases effect with
  | served _ _ _ answered =>
    have same := answered.sameAuthority
    exact ⟨same.forkQuarantined.trans quarantined.fork, same.writesEnabled.trans quarantined.writes⟩
  | promoted chosen _ ended =>
    refine ended.keeps_quarantine quarantined (unpromoted ?_)
    rcases chosen with rfl | ⟨_, rfl⟩ <;> rfl
  | quarantined => exact ⟨rfl, rfl⟩
  | recovered trusted => exact absurd (trusted.symm.trans quarantined.fork) nofun
  | _ => exact ⟨quarantined.fork, quarantined.writes⟩

theorem Model.step_quarantined {model : Model} (quarantined : model.server.Quarantined)
    (unpromoted : model.NotPromoted blake3 action) : (model.step blake3 action).server.Quarantined :=
  (model.applyUnchecked_effect blake3 action).keeps_quarantine quarantined
    fun promotes succeeded => unpromoted ⟨promotes, succeeded⟩

section
variable {model : Model} (diverged : peerRoot ≠ model.server.journalRoot blake3)
include diverged

theorem Model.detectFork_quarantined :
    (model.step blake3 (.detectFork peerRoot)).server.Quarantined := by
  simp only [step, applyUnchecked, detectFork, if_pos diverged]
  exact ⟨rfl, rfl⟩

/-- A fork the model has detected outlasts every action but a promotion. -/
theorem Model.quarantined_throughout
    (unpromoted : Run.Permitted (step blake3) (NotPromoted blake3)
      (model.step blake3 (.detectFork peerRoot)) actions) :
    Run.Throughout (step blake3) (fun reached => reached.server.Quarantined)
      (model.step blake3 (.detectFork peerRoot)) actions :=
  .of_step (detectFork_quarantined diverged) (fun _ _ => step_quarantined) unpromoted

end

end Aequora.SyncModel

namespace Aequora.Authority.AuthorityController

open Aequora.Base Aequora.Protocol Aequora.Store

/-- After a proven fork the controller refuses writes exactly as long as no recovery succeeds,
with or without promotions, where the executable model refuses them until a promotion. -/
theorem fork_refusesWrites_iff (blake3 : List UInt8 → Vector UInt8 32)
    (controller : AuthorityController) (own peer : JournalCheckpoint) (updatedAtUnixMs : Nat)
    (actions : List AuthorityAction) (fork : compareCheckpoints own peer = .forkDetected) :
    (Run.Throughout step RefusesWrites (controller.forked own peer updatedAtUnixMs) actions ↔
      Run.Permitted step NotRecovered (controller.forked own peer updatedAtUnixMs) actions) ∧
    ∀ (model : SyncModel.Model) peerRoot modelActions,
      peerRoot ≠ model.server.journalRoot blake3 →
      Run.Permitted (SyncModel.Model.step blake3) (SyncModel.Model.NotPromoted blake3)
        (model.step blake3 (.detectFork peerRoot)) modelActions →
      Run.Throughout (SyncModel.Model.step blake3) (fun reached => reached.server.Quarantined)
        (model.step blake3 (.detectFork peerRoot)) modelActions :=
  ⟨throughout_refusesWrites_iff (by rw [forked_runtimeMode fork]; exact nofun),
    fun _ _ _ diverged => SyncModel.Model.quarantined_throughout diverged⟩

def exampleServing : AuthorityController :=
  { new (.new ⟨1⟩ ⟨1⟩ .primary ⟨1⟩ 0) .default with
    state := { AuthorityState.new ⟨1⟩ ⟨1⟩ .primary ⟨1⟩ 0 with runtimeMode := .serving } }

def exampleCheckpoint (rootByte : UInt8) : JournalCheckpoint :=
  { authorityId := ⟨1⟩, epoch := 1, sequence := 1, journalRoot := Vector.replicate 32 rootByte }

/-- A recovery that is begun and then refused for a missing verification. -/
theorem fork_refusesWrites_unverified :
    compareCheckpoints (exampleCheckpoint 0) (exampleCheckpoint 1) = .forkDetected ∧
      Run.Throughout step RefusesWrites
        (exampleServing.forked (exampleCheckpoint 0) (exampleCheckpoint 1) 1)
        [.beginRecovery 2,
          .completeRecovery ⟨true, false, true, true, true, true, true, true, true⟩ 3] :=
  ⟨by decide,
    (fork_refusesWrites_iff (fun _ => Vector.replicate 32 0) exampleServing (exampleCheckpoint 0)
      (exampleCheckpoint 1) 1 _ (by decide)).1.mpr (by decide)⟩

/-- A recovery with every verification ends the quarantine, and the fork commits again. -/
theorem fork_recovered_authorizes : compareCheckpoints (exampleCheckpoint 0) (exampleCheckpoint 1) = .forkDetected ∧
      (Run.final step (exampleServing.forked (exampleCheckpoint 0) (exampleCheckpoint 1) 1)
          [.completeRecovery ⟨true, true, true, true, true, true, true, true, true⟩ 2]).authorizeWrite =
        .ok { authorityId := ⟨1⟩, epoch := 1, instanceId := ⟨1⟩, fenceToken := 1 } := by
  decide

end Aequora.Authority.AuthorityController
