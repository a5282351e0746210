import Aequora.Base.Run
import Aequora.Base.Word

/-! Adaptive push batching: additive growth after a fast exchange, halving after a slow or a failed
one, between bounds that the configuration may give in the wrong order. -/

namespace Aequora.Client

open Aequora.Base Run

/-- The tuning of a batcher; the sizes are `usize` values. -/
structure AdaptiveBatchConfig where
  (minimumOperations maximumOperations increaseStep targetLatency : Nat)
  fits : minimumOperations ≤ u64Max ∧ maximumOperations ≤ u64Max

structure AdaptiveBatcher where
  current : Nat
  adaptive : Option AdaptiveBatchConfig

/-- `Ord::clamp`, which panics when the bounds are in the wrong order. -/
def clamp (value low high : Nat) : Option Nat := if low ≤ high then some (max low (min value high)) else none

/-- One report about an exchange. -/
inductive Recording where
  | success (latency submitted terminal : Nat)
  | failure

namespace AdaptiveBatcher

/-- A static batcher, or one whose first size is clamped; `none` where the clamp panics. -/
def new (initial : Nat) (adaptive : Option AdaptiveBatchConfig) : Option AdaptiveBatcher :=
  match adaptive with
  | none => some ⟨max initial 1, none⟩
  | some config =>
    (clamp initial (max config.minimumOperations 1) (max config.maximumOperations 1)).map (⟨·, some config⟩)

variable (batcher : AdaptiveBatcher)

def limit : Nat := batcher.current

def recordSuccess (latency submitted terminal : Nat) : AdaptiveBatcher :=
  match batcher.adaptive with
  | none => batcher
  | some config =>
    let minimum := max config.minimumOperations 1
    let maximum := max config.maximumOperations minimum
    if latency ≤ config.targetLatency ∧ 0 < submitted ∧ submitted ≤ terminal then
      { batcher with current := min (saturatingAdd batcher.current config.increaseStep) maximum }
    else if config.targetLatency < latency then
      { batcher with current := max ((batcher.current + 1) / 2) minimum }
    else batcher

def recordFailure : AdaptiveBatcher :=
  match batcher.adaptive with
  | none => batcher
  | some config => { batcher with current := max ((batcher.current + 1) / 2) (max config.minimumOperations 1) }

def record : Recording → AdaptiveBatcher
  | .success latency submitted terminal => batcher.recordSuccess latency submitted terminal
  | .failure => batcher.recordFailure

end AdaptiveBatcher

namespace AdaptiveBatchConfig

/-- A batch size between the bounds the updates work with. -/
def Allows (config : AdaptiveBatchConfig) (size : Nat) : Prop :=
  max 1 config.minimumOperations ≤ size ∧ size ≤ max (max 1 config.minimumOperations) config.maximumOperations

variable {config : AdaptiveBatchConfig}

theorem Allows.grow (allowed : config.Allows size) (step : Nat) :
    config.Allows (min (saturatingAdd size step) (max config.maximumOperations (max config.minimumOperations 1))) := by
  have fits := config.fits.1
  have word : 1 ≤ u64Max := by decide
  simp only [Allows, saturatingAdd] at allowed ⊢
  omega

theorem Allows.halve (allowed : config.Allows size) :
    config.Allows (max ((size + 1) / 2) (max config.minimumOperations 1)) := by
  simp only [Allows] at allowed ⊢
  omega

theorem clamp_allows
    (clamped : clamp initial (max config.minimumOperations 1) (max config.maximumOperations 1) = some size) :
    config.Allows size := by
  unfold clamp at clamped
  split at clamped
  · cases clamped
    simp only [Allows]
    omega
  · cases clamped

end AdaptiveBatchConfig

namespace AdaptiveBatcher
variable {batcher : AdaptiveBatcher} {config : AdaptiveBatchConfig}

/-- What every report keeps: the configuration, and a size it allows. -/
def Within (config : AdaptiveBatchConfig) (batcher : AdaptiveBatcher) : Prop :=
  batcher.adaptive = some config ∧ config.Allows batcher.limit

theorem Within.record (within : batcher.Within config) (recording : Recording) :
    (batcher.record recording).Within config := by
  obtain ⟨tuned, allowed⟩ := within
  cases recording with
  | failure =>
    simp only [AdaptiveBatcher.record, recordFailure, tuned]
    exact ⟨rfl, allowed.halve⟩
  | success latency submitted terminal =>
    simp only [AdaptiveBatcher.record, recordSuccess, tuned]
    split
    · exact ⟨rfl, allowed.grow _⟩
    · split
      · exact ⟨rfl, allowed.halve⟩
      · exact ⟨tuned, allowed⟩

theorem new_within (created : new initial (some config) = some batcher) : batcher.Within config := by
  obtain ⟨size, clamped, rfl⟩ := Option.map_eq_some_iff.mp created
  exact ⟨rfl, config.clamp_allows clamped⟩

/-- A batcher is created and stays in its bounds exactly when the clamp at its creation has its bounds
in order. The reports would accept either order. -/
theorem new_bounded_iff (initial : Nat) (config : AdaptiveBatchConfig) :
    (∃ batcher, new initial (some config) = some batcher ∧
      ∀ recordings, config.Allows (final record batcher recordings).limit) ↔
    max 1 config.minimumOperations ≤ max 1 config.maximumOperations := by
  rw [max_comm 1, max_comm 1]
  constructor
  · intro bounded
    obtain ⟨_, created, _⟩ := bounded
    obtain ⟨_, clamped, _⟩ := Option.map_eq_some_iff.mp created
    by_contra reversed
    rw [clamp, if_neg reversed] at clamped
    cases clamped
  · intro ordered
    have created : new initial (some config) = some _ := congrArg (Option.map _) (if_pos ordered)
    refine ⟨_, created, fun recordings => ?_⟩
    exact (Throughout.of_invariant (new_within created) fun _ recording kept => kept.record recording).final.2

/-- A minimum of two over a maximum of one panics. -/
theorem new_panics : new 4 (some ⟨2, 1, 1, 100, by decide⟩) = none := by decide

end AdaptiveBatcher

end Aequora.Client
