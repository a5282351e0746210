import Aequora.Authority.Controller

/-! Fencing over arbitrary sequences of controller calls. What one call can do is said once; fences
only rise, and epochs only rise with timelines. -/

namespace Aequora.Authority

open Aequora.Base Aequora.Protocol Aequora.Store AuthorityController Run PromotionRequest

/-- One call on a controller. -/
inductive AuthorityAction where
  | promote (request : PromotionRequest) (transitionId : AuthorityTransitionId)
      (oldFinalSequence : Option Sequence) (newBaseSequence : Sequence)
  | demote (transitionId : AuthorityTransitionId) (updatedAtUnixMs : Nat)
  | beginRecovery (updatedAtUnixMs : Nat)
  | completeRecovery (verification : RecoveryVerification) (updatedAtUnixMs : Nat)
  | observeCheckpoint (own peer : JournalCheckpoint) (updatedAtUnixMs : Nat)
  | setExternalHighestEpoch (epoch : AuthorityEpoch)

def AuthorityAction.fences : AuthorityAction → Bool
  | .promote .. => true
  | .demote .. => true
  | _ => false

namespace AuthorityController

section
variable (controller : AuthorityController)

/-- The controller after a call, and whether the call succeeded. -/
def perform : AuthorityAction → AuthorityController × Except AuthorityError Unit
  | .promote request transitionId oldFinalSequence newBaseSequence =>
    match controller.promote request transitionId oldFinalSequence newBaseSequence with
    | .ok (promoted, _) => (promoted, .ok ())
    | .error error => (controller, .error error)
  | .demote transitionId updatedAtUnixMs =>
    ((controller.demote transitionId updatedAtUnixMs).1,
      (controller.demote transitionId updatedAtUnixMs).2.map fun _ => ())
  | .beginRecovery updatedAtUnixMs => (controller.beginRecovery updatedAtUnixMs, .ok ())
  | .completeRecovery verification updatedAtUnixMs =>
    match controller.completeRecovery verification updatedAtUnixMs with
    | .ok serving => (serving, .ok ())
    | .error error => (controller, .error error)
  | .observeCheckpoint own peer updatedAtUnixMs =>
    ((controller.observeCheckpoint own peer updatedAtUnixMs).1, .ok ())
  | .setExternalHighestEpoch epoch => controller.setExternalHighestEpoch epoch

def step (action : AuthorityAction) : AuthorityController :=
  (controller.perform action).1

def Succeeds (action : AuthorityAction) : Prop :=
  (controller.perform action).2 = .ok ()

end

instance (controller : AuthorityController) (action : AuthorityAction) : Decidable (controller.Succeeds action) :=
  inferInstanceAs (Decidable (_ = _))

end AuthorityController

/-- What a call can do: the next controller and whether the call succeeded. -/
inductive Effect (controller : AuthorityController) :
    AuthorityAction → AuthorityController → Except AuthorityError Unit → Prop where
  | refused {error : AuthorityError} :
      Effect controller action controller (.error error)
  | promoted {transitionId : AuthorityTransitionId}
      {oldFinalSequence : Option Sequence} {newBaseSequence : Sequence} {epoch : AuthorityEpoch} {fence : Nat}
      (checked : controller.checkPromotion request = .ok ())
      (continued : controller.promotedEpoch request = .ok epoch)
      (fenced : controller.nextFence = .ok fence) :
      Effect controller (.promote request transitionId oldFinalSequence newBaseSequence)
        { controller with
          state :=
            { authorityId := controller.state.authorityId
              epoch
              role := .primary
              instanceId := request.newInstanceId
              fenceToken := fence
              runtimeMode := .readOnlyVerification
              lastPromotionClass := request.promotionClass
              transitionId
              updatedAtUnixMs := request.createdAtUnixMs } } (.ok ())
  | demoted {updatedAtUnixMs : Nat} {fence : Nat}
      (fenced : controller.nextFence = .ok fence) :
      Effect controller (.demote transitionId updatedAtUnixMs)
        { controller with
          state := { controller.state with
            role := .demoted
            runtimeMode := .recovering
            fenceToken := fence
            transitionId
            updatedAtUnixMs } } (.ok ())
  | exhausted {updatedAtUnixMs : Nat} {error : AuthorityError} :
      Effect controller (.demote transitionId updatedAtUnixMs)
        { controller with
          state := { controller.state with role := .demoted, runtimeMode := .recovering } } (.error error)
  | recovering :
      Effect controller (.beginRecovery updatedAtUnixMs) (controller.beginRecovery updatedAtUnixMs) (.ok ())
  | serving {updatedAtUnixMs : Nat}
      (complete : verification.isComplete = true) (anchored : controller.ensureExternalEpoch = .ok ())
      (primary : controller.state.role = .primary) :
      Effect controller (.completeRecovery verification updatedAtUnixMs)
        { controller with
          state := { controller.state with runtimeMode := .serving, updatedAtUnixMs } }
        (.ok ())
  | observed {updatedAtUnixMs : Nat} :
      Effect controller (.observeCheckpoint own peer updatedAtUnixMs) controller (.ok ())
  | quarantined {updatedAtUnixMs : Nat} :
      Effect controller (.observeCheckpoint own peer updatedAtUnixMs)
        { controller with
          state := { controller.state with runtimeMode := .quarantined, updatedAtUnixMs } }
        (.ok ())
  | anchored (ahead : controller.state.epoch ≤ epoch)
      (raised : ∀ current ∈ controller.externalHighestEpoch, current ≤ epoch) :
      Effect controller (.setExternalHighestEpoch epoch)
        { controller with externalHighestEpoch := some epoch } (.ok ())

namespace AuthorityController
variable (controller : AuthorityController)

/-- The call does one of the things a call can do. -/
def Effective (action : AuthorityAction) : Prop :=
  Effect controller action (controller.step action) (controller.perform action).2

variable {controller}

theorem promote_effect : controller.Effective (.promote request transitionId oldFinalSequence newBaseSequence) := by
  simp only [Effective, step, perform, promote]
  cases checked : controller.checkPromotion request with
  | error error => exact .refused
  | ok _ =>
    cases continued : controller.promotedEpoch request with
    | error error => exact .refused
    | ok _ =>
      cases fenced : controller.nextFence with
      | error _ => exact .refused
      | ok _ => exact .promoted checked continued fenced

theorem demote_effect : controller.Effective (.demote transitionId updatedAtUnixMs) := by
  simp only [Effective, step, perform, demote]
  cases fenced : controller.nextFence with
  | error _ => exact .exhausted
  | ok _ => exact .demoted fenced

theorem completeRecovery_effect : controller.Effective (.completeRecovery verification updatedAtUnixMs) := by
  simp only [Effective, step, perform, completeRecovery]
  cases complete : verification.isComplete with
  | false => exact .refused
  | true =>
    cases anchored : controller.ensureExternalEpoch with
    | error _ => exact .refused
    | ok _ =>
      by_cases primary : controller.state.role = .primary
      · simpa [primary] using Effect.serving complete anchored primary
      · simp only [primary, ne_eq, not_false_eq_true, if_true]
        exact .refused

theorem setExternalHighestEpoch_effect : controller.Effective (.setExternalHighestEpoch epoch) := by
  simp only [Effective, step, perform, setExternalHighestEpoch]
  split
  · exact .refused
  · rename_i ahead
    cases held : controller.externalHighestEpoch with
    | none => exact .anchored (Nat.le_of_not_lt ahead) (by simp [held])
    | some _ =>
      dsimp only
      split
      · exact .refused
      · rename_i raised
        exact .anchored (Nat.le_of_not_lt ahead) (by simpa [held] using raised)

theorem step_effect (controller : AuthorityController) (action : AuthorityAction) :
    Effect controller action (controller.step action) (controller.perform action).2 := by
  cases action with
  | promote => exact promote_effect
  | demote => exact demote_effect
  | beginRecovery => exact .recovering
  | completeRecovery => exact completeRecovery_effect
  | observeCheckpoint =>
    simp only [step, perform, observeCheckpoint]
    split
    · exact .quarantined
    · exact .observed
  | setExternalHighestEpoch => exact setExternalHighestEpoch_effect

theorem nextFence_eq (fenced : controller.nextFence = .ok fence) : fence = controller.state.fenceToken + 1 := by
  unfold nextFence at fenced
  split at fenced
  · rename_i next found
    cases fenced
    exact (checkedAdd_eq_some.mp found).1
  · cases fenced

theorem promotedEpoch_eq (continued : controller.promotedEpoch request = .ok epoch) :
    epoch = if request.retainsEpoch then controller.state.epoch else controller.state.epoch + 1 := by
  unfold promotedEpoch at continued
  split at continued
  · rename_i retained
    cases continued
    rw [if_pos retained]
  · rename_i changed
    rw [if_neg changed]
    split at continued
    · rename_i next found
      cases continued
      exact (checkedAdd_eq_some.mp found).1
    · cases continued

end AuthorityController

namespace Effect
theorem fence_le (effect : Effect controller action next result) :
    controller.state.fenceToken ≤ next.state.fenceToken := by
  cases effect with
  | promoted _ _ fenced => exact le_of_lt (nextFence_eq fenced ▸ Nat.lt_succ_self _)
  | demoted fenced => exact le_of_lt (nextFence_eq fenced ▸ Nat.lt_succ_self _)
  | _ => exact le_refl _

theorem fence_lt (effect : Effect controller action next (.ok ())) (fences : action.fences = true) :
    controller.state.fenceToken < next.state.fenceToken := by
  cases effect with
  | promoted _ _ fenced => exact nextFence_eq fenced ▸ Nat.lt_succ_self _
  | demoted fenced => exact nextFence_eq fenced ▸ Nat.lt_succ_self _
  | _ => cases fences

section
variable (effect : Effect controller action next result)
include effect

theorem epoch_le : controller.state.epoch ≤ next.state.epoch := by
  cases effect with
  | promoted _ continued _ =>
    rw [promotedEpoch_eq continued]
    split
    · exact le_refl _
    · exact Nat.le_succ _
  | _ => exact le_refl _

theorem serving_of_change
    (before : controller.state.runtimeMode ≠ .serving) (after : next.state.runtimeMode = .serving) :
    result = .ok () ∧ ∃ verification updatedAtUnixMs, action = .completeRecovery verification updatedAtUnixMs := by
  cases effect with
  | serving => exact ⟨rfl, _, _, rfl⟩
  | refused => exact absurd after before
  | observed => exact absurd after before
  | anchored => exact absurd after before
  | _ => cases after

/-- Only a successful promotion makes an instance primary. -/
theorem primary_of_change (before : controller.state.role ≠ .primary) (after : next.state.role = .primary) :
    result = .ok () ∧ next.state.runtimeMode = .readOnlyVerification ∧
      ∃ request transitionId oldFinalSequence newBaseSequence,
        action = .promote request transitionId oldFinalSequence newBaseSequence := by
  cases effect with
  | promoted => exact ⟨rfl, rfl, _, _, _, _, rfl⟩
  | demoted => cases after
  | exhausted => cases after
  | serving _ _ primary => exact absurd primary before
  | _ => exact absurd after before

end

end Effect

/-- The request is a continuation or a migration whose losslessness is proven. -/
def PromotionRequest.ContinuesProven (request : PromotionRequest) : Prop :=
  (request.promotionClass = .losslessContinuation ∨ request.promotionClass = .newAuthorityMigration) ∧
    request.evidence.provesLossless = true

namespace AuthorityController
variable {controller : AuthorityController}

theorem checkPromotion_lossless (checked : controller.checkPromotion request = .ok ())
    (lossless : request.promotionClass = .losslessContinuation) : request.evidence.provesLossless = true := by
  simp only [checkPromotion, bind_eq_ok, require_eq_ok] at checked
  by_contra unproven
  exact checked.2.1 ⟨lossless, unproven⟩

theorem retainsEpoch_iff (checked : controller.checkPromotion request = .ok ()) :
    request.retainsEpoch = true ↔ request.ContinuesProven := by
  unfold retainsEpoch ContinuesProven
  constructor
  · intro retained
    rcases Bool.or_eq_true_iff.mp retained with continuation | migration
    · have lossless := eq_of_beq continuation
      exact ⟨.inl lossless, checkPromotion_lossless checked lossless⟩
    · obtain ⟨moved, proven⟩ := Bool.and_eq_true_iff.mp migration
      exact ⟨.inr (eq_of_beq moved), proven⟩
  · intro continues
    obtain ⟨continuation | migration, proven⟩ := continues
    · simp [continuation]
    · simp [migration, proven]

theorem authorizeWrite_ok (issued : controller.authorizeWrite = .ok context) :
    controller.state.role = .primary ∧ controller.state.runtimeMode = .serving ∧
      context.fenceToken = controller.state.fenceToken := by
  unfold authorizeWrite at issued
  cases anchored : controller.ensureExternalEpoch with
  | error _ => rw [anchored] at issued; cases issued
  | ok _ =>
    rw [anchored] at issued
    by_cases primary : controller.state.role = .primary
    · by_cases serving : controller.state.runtimeMode = .serving
      · simp only [primary, serving, ne_eq, not_true_eq_false, if_false] at issued
        cases issued
        exact ⟨primary, serving, rfl⟩
      · simp only [primary, serving, ne_eq, not_true_eq_false, not_false_eq_true, if_false, if_true] at issued
        cases issued
    · simp only [primary, ne_eq, not_false_eq_true, if_true] at issued
      cases issued

theorem verifyCommitContext_fence (verified : controller.verifyCommitContext context = .ok ()) :
    context.fenceToken = controller.state.fenceToken := by
  unfold verifyCommitContext at verified
  cases issued : controller.authorizeWrite with
  | error _ => rw [issued] at verified; cases verified
  | ok current =>
    rw [issued] at verified
    by_cases same : current = context
    · subst context
      exact (authorizeWrite_ok issued).2.2
    · simp only [bind, Except.bind, same, if_false] at verified
      cases verified

section
variable (controller : AuthorityController)

/-- What every call keeps to. -/
structure FencedStep (action : AuthorityAction) : Prop where
  fence : controller.Succeeds action → action.fences = true →
    controller.state.fenceToken < (controller.step action).state.fenceToken
  epoch : controller.state.epoch ≤ (controller.step action).state.epoch
  timeline : ∀ request transitionId oldFinalSequence newBaseSequence,
    action = .promote request transitionId oldFinalSequence newBaseSequence → controller.Succeeds action →
      ((controller.step action).state.epoch ≠ controller.state.epoch ↔ ¬request.ContinuesProven)

theorem fencedStep (action : AuthorityAction) :
    controller.FencedStep action where
  fence succeeded := by
    have effect := controller.step_effect action
    rw [show (controller.perform action).2 = .ok () from succeeded] at effect
    exact effect.fence_lt
  epoch := (controller.step_effect action).epoch_le
  timeline request transitionId oldFinalSequence newBaseSequence same succeeded := by
    subst action
    have effect := controller.step_effect (.promote request transitionId oldFinalSequence newBaseSequence)
    rw [show (controller.perform _).2 = .ok () from succeeded] at effect
    cases promoted : controller.step (.promote request transitionId oldFinalSequence newBaseSequence)
    rw [promoted] at effect
    cases effect with
    | promoted checked continued _ =>
      rw [← retainsEpoch_iff checked, promotedEpoch_eq continued]
      by_cases retained : request.retainsEpoch = true
      · simp [retained]
      · simp [retained]

/-- The calls contain a successful promotion and, later, a successful recovery. -/
def Readmitted (actions : List AuthorityAction) : Prop :=
  ∃ first request transitionId oldFinalSequence newBaseSequence middle verification updatedAtUnixMs rest,
    actions = first ++ AuthorityAction.promote request transitionId oldFinalSequence newBaseSequence ::
        (middle ++ .completeRecovery verification updatedAtUnixMs :: rest) ∧
      (final step controller first).Succeeds
        (.promote request transitionId oldFinalSequence newBaseSequence) ∧
      (final step controller (first ++
          AuthorityAction.promote request transitionId oldFinalSequence newBaseSequence :: middle)).Succeeds
        (.completeRecovery verification updatedAtUnixMs)

theorem fence_le_final (actions : List AuthorityAction) :
    controller.state.fenceToken ≤ (final step controller actions).state.fenceToken :=
  le_final (fun state action => (state.step_effect action).fence_le) controller actions

end

theorem fence_lt_final (fences : action.fences = true) (succeeded : (final step controller first).Succeeds action) :
    controller.state.fenceToken <
      (final step controller (first ++ action :: rest)).state.fenceToken := by
  rw [final_append, final_cons]
  calc controller.state.fenceToken
    _ ≤ (final step controller first).state.fenceToken := fence_le_final controller first
    _ < ((final step controller first).step action).state.fenceToken :=
      (fencedStep _ action).fence succeeded fences
    _ ≤ _ := fence_le_final _ rest

theorem readmitted_of_issued (demoted : controller.state.role = .demoted)
    (issued : (final step controller actions).authorizeWrite = .ok context) :
    controller.Readmitted actions := by
  obtain ⟨primary, serving, _⟩ := authorizeWrite_ok issued
  obtain ⟨first, promotion, _, rfl, before, after⟩ :=
    exists_step_of_change (fun state : AuthorityController => state.state.role = .primary)
      (by rw [demoted]; exact nofun) primary
  obtain ⟨promoted, verifying, request, transitionId, oldFinalSequence, newBaseSequence, rfl⟩ :=
    (step_effect _ promotion).primary_of_change before after
  rw [final_append, final_cons] at serving
  obtain ⟨middle, recovery, last, rfl, blocked, served⟩ :=
    exists_step_of_change (fun state : AuthorityController => state.state.runtimeMode = .serving)
      (by rw [verifying]; exact nofun) serving
  obtain ⟨recovered, verification, updatedAtUnixMs, rfl⟩ :=
    (step_effect _ recovery).serving_of_change blocked served
  refine ⟨first, request, transitionId, oldFinalSequence, newBaseSequence, middle, verification,
    updatedAtUnixMs, last, rfl, promoted, ?_⟩
  rw [final_append, final_cons]
  exact recovered

/-- Fencing, over any controller and any sequence of calls. -/
theorem fencing (controller : AuthorityController) (actions : List AuthorityAction) :
    Permitted step FencedStep controller actions ∧
      (∀ context, controller.authorizeWrite = .ok context →
        ∀ first action rest, actions = first ++ action :: rest → action.fences = true →
          (final step controller first).Succeeds action →
            (final step controller actions).verifyCommitContext context ≠ .ok ()) ∧
      (controller.state.role = .demoted →
        ∀ context, (final step controller actions).authorizeWrite = .ok context →
          controller.Readmitted actions) := by
  refine ⟨permitted_iff_cut.mpr fun _ _ _ _ => fencedStep _ _, ?_, fun demoted _ => readmitted_of_issued demoted⟩
  intro _ issued _ _ _ split fences succeeded verified
  have raised : controller.state.fenceToken < (final step controller actions).state.fenceToken :=
    split ▸ fence_lt_final fences succeeded
  rw [← verifyCommitContext_fence verified, (authorizeWrite_ok issued).2.2] at raised
  exact lt_irrefl _ raised

theorem nextFence_error (refused : controller.nextFence = .error error) : u64Max ≤ controller.state.fenceToken := by
  unfold nextFence at refused
  split at refused
  · cases refused
  · rename_i found
    exact Nat.le_of_lt_succ (checkedAdd_eq_none.mp found)

theorem nextFence_exhausted (spent : u64Max ≤ controller.state.fenceToken) :
    controller.nextFence = .error .fenceTokenExhausted := by
  have none : checkedAdd controller.state.fenceToken 1 = none := checkedAdd_eq_none.mpr (Nat.lt_succ_of_le spent)
  rw [nextFence, none]

theorem demote_exhausted (spent : u64Max ≤ controller.state.fenceToken) (transitionId : AuthorityTransitionId)
    (updatedAtUnixMs : Nat) :
    controller.perform (.demote transitionId updatedAtUnixMs) =
      ({ controller with state := { controller.state with role := .demoted, runtimeMode := .recovering } },
        .error .fenceTokenExhausted) := by
  simp only [perform, demote, nextFence_exhausted spent]
  rfl

/-- A refused call changes nothing, except a demotion that finds no fence above its own: it has already
written the role and the mode. -/
theorem refused_unchanged_iff (controller : AuthorityController) (action : AuthorityAction) :
    (∀ error, (controller.perform action).2 = .error error → controller.step action = controller) ↔
      ∀ transitionId updatedAtUnixMs, action = .demote transitionId updatedAtUnixMs →
        u64Max ≤ controller.state.fenceToken →
          controller.state.role = .demoted ∧ controller.state.runtimeMode = .recovering := by
  constructor
  · intro unchanged transitionId updatedAtUnixMs demotion spent
    subst action
    have written := demote_exhausted spent transitionId updatedAtUnixMs
    have same := unchanged _ (congrArg Prod.snd written)
    rw [step, written] at same
    exact ⟨(congrArg (·.state.role) same).symm, (congrArg (·.state.runtimeMode) same).symm⟩
  · intro blocked error failed
    have effect := step_effect controller action
    rw [failed] at effect
    generalize controller.step action = next at effect ⊢
    cases effect with
    | refused => rfl
    | exhausted =>
      cases fenced : controller.nextFence with
      | ok _ => simp [perform, demote, fenced, Except.map] at failed
      | error _ =>
        obtain ⟨role, mode⟩ := blocked _ _ rfl (nextFence_error fenced)
        rw [← role, ← mode]

/-- A serving primary whose fence is the largest one. -/
def lastFence : AuthorityController :=
  .new { AuthorityState.new ⟨1⟩ ⟨1⟩ .primary ⟨1⟩ 0 with fenceToken := u64Max, runtimeMode := .serving } .default

theorem demotion_refused_written :
    (lastFence.perform (.demote ⟨2⟩ 5)).2 = .error .fenceTokenExhausted ∧ lastFence.step (.demote ⟨2⟩ 5) ≠ lastFence := by
  have written := @demote_exhausted lastFence (le_refl _) ⟨2⟩ 5
  refine ⟨congrArg Prod.snd written, ?_⟩
  intro same
  rw [step, written] at same
  cases congrArg (·.state.role) same

end AuthorityController

end Aequora.Authority
