import Aequora.Scope.Membership

/-! The binding of a subscription to its scope. Transitions move it to newer versions of one scope,
the cursor moves with it, and no transition takes effect twice. -/

namespace Aequora.Scope

open Std Aequora.Base Aequora.Protocol ScopeTransitionOutcome Run

namespace LocalScopeState
/-- The transitions that take effect in a call. -/
def effects (state : LocalScopeState) : ScopeAction → List ScopeTransitionId
  | .install _ => []
  | .apply transition =>
    match state.apply transition with
    | .ok (_, outcome) => if outcome.applied = true then [transition.transitionId] else []
    | .error _ => []

section
variable (state : LocalScopeState)

/-- The call applies a transition of the subscription that does not end or pause it. -/
def Advances (action : ScopeAction) (id : SubscriptionId) : Prop :=
  ∃ transition next outcome, action = .apply transition ∧ transition.subscriptionId = id ∧
    transition.kind ≠ .revocation ∧ transition.kind ≠ .suspension ∧
    state.apply transition = .ok (next, outcome) ∧ outcome.applied = true

/-- Every subscription stays on its scope and tenant and is never bound to an older version; it is bound to a
newer one if the call advances it. -/
def MovesForward (action : ScopeAction) : Prop :=
  ∀ id earlier, state.subscriptions[id]? = some earlier →
    ∃ later, (state.step action).subscriptions[id]? = some later ∧ later.Follows earlier ∧
      (state.Advances action id → earlier.scope.Before later.scope)

/-- Cursors belong to the binding of their subscription. -/
def CursorsBound : Prop :=
  ∀ (id : SubscriptionId) subscription,
    state.subscriptions[id]? = some subscription → subscription.CursorBound

/-- Moreover, no two subscriptions share a scope. -/
structure WellBound : Prop where
  cursors : state.CursorsBound
  distinct : ∀ (first second : SubscriptionId) one other,
    state.subscriptions[first]? = some one → state.subscriptions[second]? = some other →
      one.scope.scopeId = other.scope.scopeId → first = second

end

end LocalScopeState

def ScopeAction.Sound : ScopeAction → Prop
  | .install subscription => subscription.CursorBound
  | .apply _ => True

namespace LocalScopeState
variable {state : LocalScopeState}

theorem closes_eq_false {kind : ScopeTransitionKind} (live : kind ≠ .revocation) (awake : kind ≠ .suspension) :
    kind.closes = false := by
  cases kind <;> simp_all [ScopeTransitionKind.closes]

theorem movesForward_install (state : LocalScopeState) (subscription : Subscription) :
    state.MovesForward (.install subscription) := by
  intro _ earlier found
  refine ⟨earlier, ?_, earlier.follows_refl, ?_⟩
  · rw [step]
    split
    · rename_i next installed
      obtain ⟨_, free, installed⟩ := bind_eq_ok_iff.mp installed
      cases installed
      refine (lookup_insert ..).trans ((if_neg ?_).trans found)
      rintro rfl
      rw [(require_eq_ok.mp free).1] at found
      cases found
    · exact found
  · rintro ⟨_, _, _, wrong, _⟩
    cases wrong

/-- The subscription of a transition moves as said, the others stay. -/
theorem follows_insert (found : state.subscriptions[moving]? = some current) (follows : subscription.Follows current)
    {advances : SubscriptionId → Prop} (advanced : ∀ id, advances id → id = moving ∧ current.scope.Before subscription.scope)
    (id : SubscriptionId) (earlier : Subscription) (known : state.subscriptions[id]? = some earlier) :
    ∃ later, (state.subscriptions.insert moving subscription)[id]? = some later ∧ later.Follows earlier ∧
      (advances id → earlier.scope.Before later.scope) := by
  by_cases here : moving = id
  · subst here
    obtain rfl : current = earlier := Option.some.inj (found.symm.trans known)
    exact ⟨subscription, (lookup_insert ..).trans (if_pos rfl), follows, fun moves => (advanced _ moves).2⟩
  · refine ⟨earlier, (lookup_insert ..).trans ((if_neg here).trans known), earlier.follows_refl, fun moves => ?_⟩
    exact absurd (advanced id moves).1.symm here

theorem movesForward_apply (state : LocalScopeState) (transition : ScopeTransition) :
    state.MovesForward (.apply transition) := by
  cases result : state.apply transition with
  | error _ =>
    intro id earlier found
    refine ⟨earlier, ?_, earlier.follows_refl, ?_⟩
    · rw [step, result]
      exact found
    · rintro ⟨_, next, outcome, same, -, -, -, accepted, -⟩
      cases same
      rw [result] at accepted
      cases accepted
  | ok ended =>
    obtain ⟨next, outcome⟩ := ended
    have reached : state.step (.apply transition) = next := by rw [step, result]
    have advances : ∀ id, state.Advances (.apply transition) id →
        id = transition.subscriptionId ∧ transition.kind.closes = false ∧ outcome.applied = true := by
      rintro id ⟨_, _, _, same, rfl, live, awake, accepted, applied⟩
      cases same
      rw [result] at accepted
      cases accepted
      exact ⟨rfl, closes_eq_false live awake, applied⟩
    rw [MovesForward, reached]
    cases apply_accepted result with
    | repeated =>
      refine fun id earlier found => ⟨earlier, found, earlier.follows_refl, fun moves => ?_⟩
      exact absurd (advances id moves).2.2 Bool.false_ne_true
    | @held current found valid _ =>
      have kept : Subscription.Follows { current with
          state := transition.kind.stagingState
          pendingTransition := some transition.transitionId } current := ⟨rfl, rfl, ResolvedScope.upTo_refl _⟩
      refine follows_insert found kept fun id moves => ?_
      exact absurd (advances id moves).2.2 Bool.false_ne_true
    | applied found valid entered =>
      refine follows_insert found (moved_follows valid entered) fun id moves => ?_
      obtain ⟨own, moves, -⟩ := advances id moves
      exact ⟨own, (moved_open moves valid entered).2.1⟩

theorem movesForward_step (state : LocalScopeState) (action : ScopeAction) : state.MovesForward action := by
  cases action with
  | install subscription => exact movesForward_install state subscription
  | apply transition => exact movesForward_apply state transition

/-! ### Cursors -/

theorem cursors_insert
    (cursors : state.CursorsBound) (bound : subscription.CursorBound) (id : SubscriptionId) (known : Subscription)
    (found : (state.subscriptions.insert moving subscription)[id]? = some known) : known.CursorBound := by
  rw [lookup_insert] at found
  split at found
  · cases found
    exact bound
  · exact cursors id known found

theorem CursorsBound.step (cursors : state.CursorsBound) (sound : action.Sound) :
    (state.step action).CursorsBound := by
  cases action with
  | install _ =>
    rw [LocalScopeState.step]
    split
    · rename_i next installed
      obtain ⟨_, _, installed⟩ := bind_eq_ok_iff.mp installed
      cases installed
      exact cursors_insert cursors sound
    · exact cursors
  | apply transition =>
    rw [LocalScopeState.step]
    split
    · rename_i next outcome accepted
      cases apply_accepted accepted with
      | repeated => exact cursors
      | held found valid _ =>
        have bound := cursors _ _ found
        exact cursors_insert cursors bound
      | applied found valid entered =>
        refine cursors_insert cursors ?_
        cases kind : transition.kind.closes with
        | false => exact (moved_open kind valid entered).2.2
        | true => exact (moved_closed kind entered).2 (cursors _ _ found)
    · exact cursors

/-! ### Effects -/

theorem effects_fresh (state : LocalScopeState) (action : ScopeAction) :
    (state.effects action).Nodup ∧ (∀ id ∈ state.effects action, id ∉ state.appliedTransitions) ∧
      ∀ id, id ∈ (state.step action).appliedTransitions ↔
        id ∈ state.appliedTransitions ∨ id ∈ state.effects action := by
  cases action with
  | install _ =>
    refine ⟨List.nodup_nil, by simp [effects], fun id => ?_⟩
    rw [step]
    split
    · rename_i next installed
      obtain ⟨_, _, installed⟩ := bind_eq_ok_iff.mp installed
      cases installed
      simp [effects]
    · simp [effects]
  | apply transition =>
    cases result : state.apply transition with
    | error _ => simp [effects, step, result]
    | ok ended =>
      obtain ⟨_, outcome⟩ := ended
      simp only [effects, step, result]
      have fresh : outcome.applied = true → transition.transitionId ∉ state.appliedTransitions := by
        intro applied known
        rw [apply, if_pos known] at result
        cases result
        cases applied
      cases apply_accepted result with
      | repeated => simp [notApplied]
      | held => simp [notApplied, hold]
      | applied => simpa [or_comm] using fresh

/-- Every transition that took effect did so once and is remembered. -/
def Remembered (state : LocalScopeState) (ids : List ScopeTransitionId) : Prop :=
  ids.Nodup ∧ ∀ id ∈ ids, id ∈ state.appliedTransitions

theorem Remembered.step (remembered : state.Remembered ids) (action : ScopeAction) :
    (state.step action).Remembered (ids ++ state.effects action) := by
  obtain ⟨once, fresh, grows⟩ := state.effects_fresh action
  refine ⟨List.nodup_append.mpr ⟨remembered.1, once, ?_⟩, fun id listed => (grows id).mpr ?_⟩
  · rintro id known _ new rfl
    exact fresh id new (remembered.2 id known)
  · exact (List.mem_append.mp listed).imp_left (remembered.2 id)

/-- In any run of installations with matching cursors and of transitions, bindings only move forward, cursors
belong to their binding, no scope is shared, and no transition takes effect twice. -/
theorem scope_binding_coherent (actions : List ScopeAction) (sound : ∀ action ∈ actions, action.Sound) :
    Permitted step MovesForward default actions ∧ Throughout step WellBound default actions ∧
      (trace step effects default actions).Nodup := by
  refine ⟨?_, ?_, ?_⟩
  · exact permitted_iff_cut.mpr fun before action after _ => movesForward_step _ action
  · have allowed : Permitted step (fun _ action => action.Sound) default actions :=
      permitted_iff_cut.mpr fun before action after split => sound action (by simp [split])
    have empty : default.CursorsBound := fun id subscription found => by simp [LocalScopeState.default] at found
    have cursors : Throughout step CursorsBound default actions :=
      Throughout.of_step empty (fun _ _ bound sound => bound.step sound) allowed
    refine throughout_iff_cut.mpr fun before after split => ?_
    exact ⟨throughout_iff_cut.mp cursors before after split, (coherent_of_run before).distinct⟩
  · have initial : default.Remembered [] := ⟨List.nodup_nil, by simp⟩
    refine (invariant_with_trace initial ?_ actions [] actions.append_nil.symm).1
    exact fun before action after _ remembered => remembered.step action

def exampleBindings : List ScopeAction :=
  exampleHeld [1] ++ [.apply exampleContraction, .apply (exampleMove .suspension 3 [] []), .apply exampleContraction]

theorem scope_binding_coherent_moves : trace step effects default exampleBindings = [⟨1⟩, ⟨2⟩, ⟨3⟩] ∧
      Permitted step MovesForward default exampleBindings ∧ Throughout step WellBound default exampleBindings := by
  have sound : ∀ action ∈ exampleBindings, action.Sound := by
    intro action listed
    cases action with
    | apply => trivial
    | install subscription =>
      have same : subscription = exampleSubscription := by simpa [exampleBindings, exampleHeld] using listed
      subst same
      intro _ impossible
      cases impossible
  obtain ⟨forward, bound, -⟩ := scope_binding_coherent exampleBindings sound
  exact ⟨by rfl, forward, bound⟩

end LocalScopeState

end Aequora.Scope
