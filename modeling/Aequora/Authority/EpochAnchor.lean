import Aequora.Authority.Fencing

/-! Promotions against the control plane's anchor. A promotion computes the new epoch from the old
one alone. -/

namespace Aequora.Authority

open Aequora.Base Aequora.Protocol Aequora.Store Run

namespace AuthorityController

section
variable (controller : AuthorityController)

/-- The anchor a successful call installs. -/
def installs (action : AuthorityAction) : List AuthorityEpoch :=
  match action with
  | .setExternalHighestEpoch epoch => if controller.Succeeds (.setExternalHighestEpoch epoch) then [epoch] else []
  | _ => []

def installed (actions : List AuthorityAction) : List AuthorityEpoch :=
  trace step installs controller actions

/-- A call installs an anchor no lower than the one in force, or leaves the anchor alone. -/
theorem step_anchor (action : AuthorityAction) :
    (∃ epoch, controller.installs action = [epoch] ∧
        (controller.step action).externalHighestEpoch = some epoch ∧
        ∀ current ∈ controller.externalHighestEpoch, current ≤ epoch) ∨
      controller.installs action = [] ∧
        (controller.step action).externalHighestEpoch = controller.externalHighestEpoch := by
  have effect := controller.step_effect action
  cases action with
  | setExternalHighestEpoch epoch =>
    by_cases succeeded : controller.Succeeds (.setExternalHighestEpoch epoch)
    · left
      rw [show (controller.perform _).2 = .ok () from succeeded] at effect
      refine ⟨epoch, if_pos succeeded, ?_⟩
      cases moved : controller.step (.setExternalHighestEpoch epoch)
      rw [moved] at effect
      cases effect with
      | anchored _ raised => exact ⟨rfl, raised⟩
    · right
      refine ⟨if_neg succeeded, ?_⟩
      cases moved : controller.step (.setExternalHighestEpoch epoch)
      cases ended : (controller.perform (.setExternalHighestEpoch epoch)).2 with
      | ok _ => exact absurd ended succeeded
      | error _ =>
        rw [moved, ended] at effect
        cases effect with
        | refused => rfl
  | _ =>
    right
    refine ⟨rfl, ?_⟩
    generalize controller.step _ = next at effect ⊢
    generalize (controller.perform _).2 = result at effect
    cases effect <;> rfl

/-- The anchor in force is the highest of those installed. -/
structure Anchored (anchors : List AuthorityEpoch) : Prop where
  held : ∀ current ∈ controller.externalHighestEpoch, current ∈ anchors
  highest : ∀ anchor ∈ anchors, ∃ current ∈ controller.externalHighestEpoch, anchor ≤ current

end

variable {controller : AuthorityController}

theorem Anchored.step (anchored : controller.Anchored anchors) (action : AuthorityAction) :
    (controller.step action).Anchored (anchors ++ controller.installs action) := by
  rcases controller.step_anchor action with ⟨epoch, installs, now, raised⟩ | ⟨nothing, same⟩
  · rw [installs]
    constructor
    · intro current inForce
      rw [now] at inForce
      cases inForce
      exact List.mem_append_right _ (List.mem_singleton_self _)
    · intro anchor member
      refine ⟨epoch, now, ?_⟩
      rcases List.mem_append.mp member with earlier | new
      · obtain ⟨current, inForce, below⟩ := anchored.highest anchor earlier
        exact le_trans below (raised current inForce)
      · exact le_of_eq (List.mem_singleton.mp new)
  · rw [nothing, List.append_nil]
    constructor
    · rw [same]
      exact anchored.held
    · rw [same]
      exact anchored.highest

theorem anchored_of_run (state : AuthorityState) (policy : AuthorityPromotionPolicy)
    (actions : List AuthorityAction) :
    (final step (new state policy) actions).Anchored (installed (new state policy) actions) := by
  have initial : (new state policy).Anchored [] := ⟨nofun, nofun⟩
  refine invariant_with_trace initial ?_ actions [] (List.append_nil actions).symm
  exact fun _ action _ _ held => held.step action

theorem Anchored.reached_iff (anchored : controller.Anchored anchors) :
    controller.ensureExternalEpoch = .ok () ↔ ∀ anchor ∈ anchors, anchor ≤ controller.state.epoch := by
  unfold ensureExternalEpoch
  cases inForce : controller.externalHighestEpoch with
  | none =>
    refine iff_of_true rfl fun anchor member => ?_
    obtain ⟨current, found, _⟩ := anchored.highest anchor member
    rw [inForce] at found
    cases found
  | some highest =>
    have member : highest ∈ anchors := anchored.held highest inForce
    dsimp only
    by_cases behind : controller.state.epoch < highest
    · rw [if_pos behind]
      exact iff_of_false nofun fun reached => lt_irrefl _ (lt_of_lt_of_le behind (reached highest member))
    · rw [if_neg behind]
      refine iff_of_true rfl fun anchor installed => ?_
      obtain ⟨_, found, below⟩ := anchored.highest anchor installed
      rw [inForce] at found
      cases found
      exact le_trans below (Nat.le_of_not_lt behind)

theorem risky_changes_epoch {request : PromotionRequest} (risky : request.risky = true) :
    request.retainsEpoch = false := by
  unfold PromotionRequest.risky at risky
  unfold PromotionRequest.retainsEpoch
  cases promotion : request.promotionClass <;> simp [promotion] at risky ⊢
  exact risky

/-- In every run of calls on a new controller, a promotion that may lose data moves to an epoch above
the old one; it is above every anchor installed so far exactly when the controller had reached its
anchor. -/
theorem promotion_unused_iff {state : AuthorityState} {policy : AuthorityPromotionPolicy}
    {actions : List AuthorityAction} {request : PromotionRequest} {transitionId : AuthorityTransitionId}
    {oldFinalSequence : Option Sequence} {newBaseSequence : Sequence} (risky : request.risky = true)
    (promoted : (final step (new state policy) actions).Succeeds
      (.promote request transitionId oldFinalSequence newBaseSequence)) :
    (final step (new state policy) actions).state.epoch <
        ((final step (new state policy) actions).step
          (.promote request transitionId oldFinalSequence newBaseSequence)).state.epoch ∧
      ((∀ anchor ∈ installed (new state policy) actions,
          anchor < ((final step (new state policy) actions).step
            (.promote request transitionId oldFinalSequence newBaseSequence)).state.epoch) ↔
        (final step (new state policy) actions).ensureExternalEpoch = .ok ()) := by
  have anchored := anchored_of_run state policy actions
  have effect := step_effect (final step (new state policy) actions)
    (.promote request transitionId oldFinalSequence newBaseSequence)
  rw [show (perform _ _).2 = .ok () from promoted] at effect
  have next : ((final step (new state policy) actions).step
      (.promote request transitionId oldFinalSequence newBaseSequence)).state.epoch =
        (final step (new state policy) actions).state.epoch + 1 := by
    generalize step _ _ = after at effect
    cases effect with
    | promoted _ continued _ => simp [promotedEpoch_eq continued, risky_changes_epoch risky]
  rw [next, anchored.reached_iff]
  exact ⟨Nat.lt_succ_self _, forall₂_congr fun _ _ => Nat.lt_succ_iff⟩

def exampleState : AuthorityState := .new ⟨1⟩ ⟨1⟩ .primary ⟨1⟩ 0

/-- A fenced and approved promotion that gives up commits. -/
def exampleLoss : PromotionRequest where
  promotionClass := .potentialDataLoss
  reason := .regionFailover
  evidence :=
    { oldPrimaryExternallyFenced := true
      replicationLag := none
      journalContinuity := false
      operationLedgerContinuity := false
      auditContinuity := false
      authorityMetadataContinuity := false
      scopeMetadataContinuity := false
      snapshotCatalogConsistent := false }
  allowDataLoss := true
  manuallyApproved := true
  newInstanceId := ⟨2⟩
  createdAtUnixMs := 1

/-- With the anchor at the current epoch, the promotion moves past it. -/
theorem promotion_unused_at_anchor : 1 ∈ installed (new exampleState .default) [.setExternalHighestEpoch 1] ∧
      1 < ((final step (new exampleState .default) [.setExternalHighestEpoch 1]).step
        (.promote exampleLoss ⟨2⟩ none 0)).state.epoch :=
  ⟨by decide, (promotion_unused_iff (by decide) (by decide)).2.mpr (by decide) 1 (by decide)⟩

/-- With the anchor ahead, a promotion reuses the anchored epoch, recovers and serves in it. -/
theorem promotion_reuses_anchored_epoch : exampleLoss.risky = true ∧
      2 ∈ installed (new exampleState .default) [.setExternalHighestEpoch 2] ∧
      (final step (new exampleState .default) [.setExternalHighestEpoch 2]).Succeeds
        (.promote exampleLoss ⟨2⟩ none 0) ∧
      ((final step (new exampleState .default) [.setExternalHighestEpoch 2]).step
        (.promote exampleLoss ⟨2⟩ none 0)).state.epoch = 2 ∧
      (final step (new exampleState .default)
          [.setExternalHighestEpoch 2, .promote exampleLoss ⟨2⟩ none 0,
            .completeRecovery ⟨true, true, true, true, true, true, true, true, true⟩ 2]).authorizeWrite =
        .ok { authorityId := ⟨1⟩, epoch := 2, instanceId := ⟨2⟩, fenceToken := 2 } := by
  decide

end AuthorityController

end Aequora.Authority
