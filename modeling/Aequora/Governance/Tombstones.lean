import Aequora.Base.Check
import Aequora.Protocol.Types

/-! When a tombstone may be collected. It waits for active devices only, but the journal floor accepts
the cursors of inactive devices too. -/

namespace Aequora.Governance

open Aequora.Base Aequora.Protocol

inductive GovernanceError where
  | unsafeJournalFloor

inductive DeviceLifecycle where
  | active | requiresRebootstrap | retired | revoked | expired
deriving DecidableEq

structure DeviceWatermark where
  acknowledged : Sequence
  lifecycle : DeviceLifecycle

structure JournalFloor where
  scopeGeneration : Nat
  minimumResumable : Sequence
  bootstrapAvailable : Bool

def JournalFloor.cursorValid (floor : JournalFloor) (cursor : Sequence) (generation : Nat) : Bool :=
  generation = floor.scopeGeneration ∧ floor.minimumResumable ≤ cursor

def JournalFloor.verify (floor : JournalFloor) : Except GovernanceError Unit :=
  require (¬(floor.scopeGeneration = 0 ∨ !floor.bootstrapAvailable)) .unsafeJournalFloor

structure TombstoneGcCandidate where
  deletionSequence : Sequence
  (retainedIdentityGuard held : Bool)

inductive TombstoneGcDecision where
  | eligible | retainForClient | retainForHold | retainForIdentityGuard | rebootstrapUnavailable
deriving DecidableEq

def evaluateTombstoneGc (candidate : TombstoneGcCandidate) (devices : List DeviceWatermark) (floor : JournalFloor) :
    Except GovernanceError TombstoneGcDecision := do
  floor.verify
  return if candidate.held then .retainForHold
    else if !candidate.retainedIdentityGuard then .retainForIdentityGuard
    else if !floor.bootstrapAvailable then .rebootstrapUnavailable
    else if devices.any fun device =>
      device.lifecycle = .active ∧ device.acknowledged ≤ candidate.deletionSequence then .retainForClient
    else .eligible

/-- The floor accepts the cursor of an inactive device that did not see the deletion. -/
def Stranded (candidate : TombstoneGcCandidate) (floor : JournalFloor) (device : DeviceWatermark) : Prop :=
  device.lifecycle ≠ .active ∧ floor.minimumResumable ≤ device.acknowledged ∧
    device.acknowledged ≤ candidate.deletionSequence

theorem eligible_active (eligible : evaluateTombstoneGc candidate devices floor = .ok .eligible)
    (member : device ∈ devices) (active : device.lifecycle = .active) :
    candidate.deletionSequence < device.acknowledged := by
  obtain ⟨_, eligible⟩ := check_bind_eq_ok.mp eligible
  replace eligible := Except.ok.inj eligible
  split_ifs at eligible with _ _ _ waits
  simp only [List.any_eq_true, decide_eq_true_eq, not_exists, not_and] at waits
  exact Nat.lt_of_not_le (waits device member active)

/-- An eligible tombstone is past every device that can resume exactly when no inactive device is stranded. -/
theorem tombstoneGc_iff (candidate : TombstoneGcCandidate) (devices : List DeviceWatermark) (floor : JournalFloor) :
    (evaluateTombstoneGc candidate devices floor = .ok .eligible → ∀ device ∈ devices,
        floor.cursorValid device.acknowledged floor.scopeGeneration → candidate.deletionSequence < device.acknowledged) ↔
      (evaluateTombstoneGc candidate devices floor = .ok .eligible →
        ∀ device ∈ devices, ¬Stranded candidate floor device) := by
  refine imp_congr_right fun eligible => forall₂_congr fun device member => ?_
  simp only [JournalFloor.cursorValid, true_and, decide_eq_true_eq, Stranded, not_and, Nat.not_le]
  constructor
  · intro past _ resumable
    exact past resumable
  · intro past resumable
    by_cases active : device.lifecycle = .active
    · exact eligible_active eligible member active
    · exact past active resumable

/-- An expired device at sequence 3 can resume, but the deletion at sequence 5 is forgotten. -/
theorem tombstoneGc_expired : let floor : JournalFloor := ⟨1, 2, true⟩
    let device : DeviceWatermark := ⟨3, .expired⟩
    evaluateTombstoneGc ⟨5, true, false⟩ [device] floor = .ok .eligible ∧ floor.cursorValid device.acknowledged 1 ∧
      ¬5 < device.acknowledged :=
  ⟨rfl, rfl, by decide⟩

end Aequora.Governance
