import Aequora.Scope.Membership

/-! Revocation leaves the version of the subscription where it was, so transitions issued against
that version are still accepted afterwards. -/

namespace Aequora.Scope

open Std Aequora.Base Aequora.Protocol ScopeTransitionOutcome ScopeTransitionKind Run

namespace LocalScopeState
variable {state : LocalScopeState}
  {transition : ScopeTransition}

section
variable (state : LocalScopeState) (subscriptionId : SubscriptionId)

/-- The subscription is not active and its scope holds no entity. -/
structure Closed (scope : SyncScopeId) : Prop where
  inactive : ∀ subscription, state.subscriptions[subscriptionId]? = some subscription →
    subscription.state ≠ .active
  unheld : ∀ key, scope ∉ state.memberships.holders key

/-- The transition of the subscription that takes effect in a call. -/
def takesEffect : ScopeAction → Option ScopeTransition
  | .install _ => none
  | .apply transition =>
    match state.apply transition with
    | .ok (_, outcome) =>
      if transition.subscriptionId = subscriptionId ∧ outcome.applied = true then some transition else none
    | .error _ => none

end

section
variable (subscriptionId : SubscriptionId) (state : LocalScopeState) (action : ScopeAction)

/-- The call does not bootstrap the subscription or reset its generation. -/
def NotRestarted : Prop :=
  ∀ transition ∈ state.takesEffect subscriptionId action, transition.kind.restarts = false

/-- A transition of the subscription that takes effect only closes, and adds nothing. -/
def KeepsClosed : Prop :=
  ∀ transition ∈ state.takesEffect subscriptionId action,
    transition.kind.closes = true ∧ transition.additions = []

end

/-- The boundary is closed in every state that is reached before a restart of the subscription. -/
def ClosedUntilRestart (subscriptionId : SubscriptionId) (scope : SyncScopeId) (start : LocalScopeState)
    (actions : List ScopeAction) : Prop :=
  ∀ before after, actions = before ++ after → Permitted step (NotRestarted subscriptionId) start before →
    (final step start before).Closed subscriptionId scope

/-- The subscription is installed and bound to the scope. -/
def Bound (state : LocalScopeState) (subscriptionId : SubscriptionId) (scope : SyncScopeId) : Prop :=
  ∃ current, state.subscriptions[subscriptionId]? = some current ∧ current.scope.scopeId = scope

theorem takesEffect_refused (refused : state.apply transition = .error error) :
    state.takesEffect subscriptionId (.apply transition) = none := by
  simp [takesEffect, refused]

theorem takesEffect_accepted (accepted : state.apply transition = .ok (next, outcome)) :
    state.takesEffect subscriptionId (.apply transition) =
      if transition.subscriptionId = subscriptionId ∧ outcome.applied = true then some transition else none := by
  simp [takesEffect, accepted]

theorem moved_state (entered : moved current transition = .ok subscription) :
    subscription.state = .active ↔ transition.kind.closes = false := by
  unfold moved at entered
  split at entered
  · rename_i revocation
    cases entered
    simp [revocation, closes]
  · rename_i suspension
    cases entered
    simp [suspension, closes]
  · rename_i unrevoked unsuspended
    split at entered
    · cases entered
    · cases entered
      cases kind : transition.kind <;> simp_all [closes]

theorem stagingState_inactive (kind : ScopeTransitionKind) : kind.stagingState ≠ .active := by
  cases kind <;> exact nofun

theorem mem_holders_transfer_other (different : other ≠ scope) :
    other ∈ (state.transfer scope transition).1.holders key ↔ other ∈ state.memberships.holders key := by
  rw [holders_transfer]
  by_cases adds : transition.Adds key <;> by_cases drops : transition.Drops key <;>
    simp [adds, drops, different]

theorem mem_holders_transfer_self (cleared : transition.kind.clears = true ∨
      ∀ key, scope ∉ state.memberships.holders key) :
    scope ∈ (state.transfer scope transition).1.holders key ↔ transition.Adds key := by
  rw [holders_transfer]
  by_cases adds : transition.Adds key
  · simp [adds]
  · by_cases drops : transition.Drops key
    · simp [adds, drops]
    · rcases cleared with clears | unheld
      · exact absurd (.inl clears) drops
      · simp [adds, drops, unheld key]

theorem forall_not_adds : (∀ key, ¬transition.Adds key) ↔ transition.additions = [] := by
  constructor
  · intro none
    apply List.eq_nil_iff_forall_not_mem.mpr
    intro _ member
    exact none _ (List.mem_map_of_mem member)
  · intro empty _ adds
    simp [ScopeTransition.Adds, empty] at adds

theorem Bound.accepted (bound : state.Bound subscriptionId scope)
    (ended : Accepted state transition next outcome) : next.Bound subscriptionId scope := by
  obtain ⟨current, stored, same⟩ := bound
  cases ended with
  | repeated => exact ⟨current, stored, same⟩
  | held found valid =>
    by_cases here : transition.subscriptionId = subscriptionId
    · subst here
      cases stored.symm.trans found
      exact ⟨_, (lookup_insert ..).trans (if_pos rfl), same⟩
    · exact ⟨current, (lookup_insert ..).trans ((if_neg here).trans stored), same⟩
  | applied found valid entered =>
    by_cases here : transition.subscriptionId = subscriptionId
    · subst here
      cases stored.symm.trans found
      exact ⟨_, (lookup_insert ..).trans (if_pos rfl), (moved_follows valid entered).scopeId.trans same⟩
    · exact ⟨current, (lookup_insert ..).trans ((if_neg here).trans stored), same⟩

theorem Bound.step (bound : state.Bound subscriptionId scope) (action : ScopeAction) :
    (state.step action).Bound subscriptionId scope := by
  cases action with
  | install _ =>
    rw [LocalScopeState.step]
    split
    · rename_i next installed
      obtain ⟨_, free, installed⟩ := bind_eq_ok_iff.mp installed
      obtain ⟨absent, _⟩ := require_eq_ok.mp free
      cases installed
      obtain ⟨current, stored, same⟩ := bound
      refine ⟨current, (lookup_insert ..).trans ((if_neg fun here => ?_).trans stored), same⟩
      rw [here, stored] at absent
      cases absent
    · exact bound
  | apply _ =>
    rw [LocalScopeState.step]
    split
    · rename_i accepted
      exact bound.accepted (apply_accepted accepted)
    · exact bound

section
variable (coherent : state.Coherent) (bound : state.Bound subscriptionId scope)
include coherent bound

/-- Whether an accepted transition leaves a closed boundary closed. -/
theorem closed_accepted_iff
    (closed : state.Closed subscriptionId scope) (ended : Accepted state transition next outcome) :
    next.Closed subscriptionId scope ↔
      (transition.subscriptionId = subscriptionId ∧ outcome.applied = true →
        transition.kind.closes = true ∧ transition.additions = []) := by
  cases ended with
  | repeated => simpa [notApplied] using closed
  | held found valid =>
    simp only [notApplied, Bool.false_eq_true, and_false, false_implies, iff_true]
    refine ⟨fun subscription stored => ?_, closed.unheld⟩
    rw [hold, lookup_insert] at stored
    split at stored
    · cases stored
      exact stagingState_inactive _
    · exact closed.inactive subscription stored
  | @applied current subscription found _ entered =>
    simp only [and_true]
    obtain ⟨mine, stored, same⟩ := bound
    by_cases here : transition.subscriptionId = subscriptionId
    · subst here
      cases stored.symm.trans found
      subst same
      have holds (key : MembershipKey) :
          current.scope.scopeId ∈ (state.transfer current.scope.scopeId transition).1.holders key ↔
            transition.Adds key := mem_holders_transfer_self (.inr closed.unheld)
      simp only [true_implies]
      constructor
      · intro after
        have inactive := after.inactive subscription ((lookup_insert ..).trans (if_pos rfl))
        rw [ne_eq, moved_state entered, Bool.not_eq_false] at inactive
        exact ⟨inactive, forall_not_adds.mp fun key adds => after.unheld key ((holds key).mpr adds)⟩
      · rintro ⟨closes, empty⟩
        refine ⟨fun known read => ?_, fun key member => forall_not_adds.mpr empty key ((holds key).mp member)⟩
        rw [lookup_insert, if_pos rfl] at read
        cases read
        rw [ne_eq, moved_state entered, closes]
        exact Bool.noConfusion
    · simp only [here, false_implies, iff_true]
      have different : scope ≠ current.scope.scopeId := fun equal =>
        here (coherent.distinct _ _ current mine found stored (equal.symm.trans same.symm))
      refine ⟨fun known read => ?_, fun key member => ?_⟩
      · rw [lookup_insert, if_neg here] at read
        exact closed.inactive known read
      · exact closed.unheld key ((mem_holders_transfer_other different).mp member)

theorem closed_step_iff (closed : state.Closed subscriptionId scope) :
    (state.step action).Closed subscriptionId scope ↔ KeepsClosed subscriptionId state action := by
  cases action with
  | install _ =>
    simp only [KeepsClosed, takesEffect, Option.not_mem_none, false_implies, implies_true, iff_true]
    rw [step]
    split
    · rename_i next installed
      obtain ⟨_, free, installed⟩ := bind_eq_ok_iff.mp installed
      obtain ⟨absent, _⟩ := require_eq_ok.mp free
      cases installed
      obtain ⟨_, stored, _⟩ := bound
      refine ⟨fun known read => ?_, closed.unheld⟩
      rw [lookup_insert] at read
      split at read
      · rename_i here
        rw [here, stored] at absent
        cases absent
      · exact closed.inactive known read
    · exact closed
  | apply transition =>
    cases applied : state.apply transition with
    | error _ =>
      simpa [KeepsClosed, takesEffect_refused applied, step, applied] using closed
    | ok ended =>
      obtain ⟨_, _⟩ := ended
      simp only [KeepsClosed, takesEffect_accepted applied, step, applied]
      rw [closed_accepted_iff coherent bound closed (apply_accepted applied)]
      split
      · rename_i mine
        simp [mine]
      · rename_i other
        simp [other]

/-- From a closed boundary it stays closed until a restart exactly when every transition that
takes effect before one only closes. -/
theorem closedUntilRestart_iff : ClosedUntilRestart subscriptionId scope state actions ↔
      state.Closed subscriptionId scope ∧
        ∀ before action after, actions = before ++ action :: after →
          Permitted step (NotRestarted subscriptionId) state (before ++ [action]) →
            KeepsClosed subscriptionId (final step state before) action := by
  have kept (before : List ScopeAction) : (final step state before).Coherent ∧
      (final step state before).Bound subscriptionId scope := by
    have throughout : Throughout step
        (fun reached => reached.Coherent ∧ reached.Bound subscriptionId scope) state before :=
      .of_invariant ⟨coherent, bound⟩ fun _ action held => ⟨held.1.step action, held.2.step action⟩
    exact throughout.final
  constructor
  · intro closed
    refine ⟨closed [] actions rfl trivial, fun before action after split unrestarted => ?_⟩
    have earlier := (permitted_append.mp unrestarted).1
    have now := closed (before ++ [action]) after (by simp [split]) unrestarted
    rw [final_append] at now
    exact (closed_step_iff (kept before).1 (kept before).2 (closed before (action :: after) split earlier)).mp now
  · rintro ⟨start, keeps⟩ before
    induction before using List.reverseRecOn with
    | nil => exact fun _ _ _ => start
    | append_singleton before action ih =>
      intro after split unrestarted
      have joined : actions = before ++ action :: after := by simp [split]
      have earlier := (permitted_append.mp unrestarted).1
      rw [final_append]
      exact (closed_step_iff (kept before).1 (kept before).2 (ih (action :: after) joined earlier)).mpr
        (keeps before action after joined unrestarted)

end

/-- A revocation that takes effect closes the boundary unless it adds memberships itself. -/
theorem closed_revoked_iff (revokes : transition.kind = .revocation)
    (found : state.subscriptions[transition.subscriptionId]? = some current)
    (ended : Accepted state transition next outcome) :
    next.Closed transition.subscriptionId current.scope.scopeId ↔
      if outcome.applied then transition.additions = []
      else state.Closed transition.subscriptionId current.scope.scopeId := by
  cases ended with
  | repeated => simp [notApplied]
  | held _ _ stages =>
    rw [revokes] at stages
    cases stages
  | applied stored _ entered =>
    cases found.symm.trans stored
    have holds (key : MembershipKey) :
        current.scope.scopeId ∈ (state.transfer current.scope.scopeId transition).1.holders key ↔
          transition.Adds key := mem_holders_transfer_self (.inl (by rw [revokes]; rfl))
    simp only [if_true]
    rw [← forall_not_adds]
    constructor
    · intro closed key adds
      exact closed.unheld key ((holds key).mpr adds)
    · intro none
      refine ⟨fun known read => ?_, fun key member => none key ((holds key).mp member)⟩
      rw [lookup_insert, if_pos rfl] at read
      cases read
      rw [ne_eq, moved_state entered, revokes]
      exact Bool.noConfusion

/-- After an accepted revocation the boundary is closed in every state reached before a restart,
exactly when the revocation took effect without additions of its own and every transition of the
subscription that takes effect before a restart is a revocation or suspension without additions. -/
theorem revocation_closes_iff (actions further : List ScopeAction) (transition : ScopeTransition)
    {current : Subscription} (revokes : transition.kind = .revocation)
    (found : (final step default actions).subscriptions[transition.subscriptionId]? = some current)
    (accepted : (final step default actions).apply transition = .ok (next, outcome)) :
    ClosedUntilRestart transition.subscriptionId current.scope.scopeId next further ↔
      (if outcome.applied then transition.additions = []
        else (final step default actions).Closed transition.subscriptionId current.scope.scopeId) ∧
      ∀ before action after, further = before ++ action :: after →
        Permitted step (NotRestarted transition.subscriptionId) next (before ++ [action]) →
          KeepsClosed transition.subscriptionId (final step next before) action := by
  have coherent := coherent_of_run actions
  have ended := apply_accepted accepted
  rw [closedUntilRestart_iff (coherent.accepted ended) (Bound.accepted ⟨current, found, rfl⟩ ended),
    closed_revoked_iff revokes found ended]

end LocalScopeState

def exampleRevocation : ScopeTransition := exampleMove .revocation 2 [] []

def exampleDelayed (kind : ScopeTransitionKind) (additions : List ProjectionVersion) : ScopeTransition :=
  { exampleMove kind 2 additions [] with transitionId := ⟨3⟩ }

namespace LocalScopeState

/-- A suspension after the revocation leaves the boundary closed. -/
theorem revocation_closes_suspended : ∃ current next outcome,
      (final step default (exampleHeld [1])).subscriptions[exampleRevocation.subscriptionId]? = some current ∧
      (final step default (exampleHeld [1])).apply exampleRevocation = .ok (next, outcome) ∧
      ClosedUntilRestart exampleRevocation.subscriptionId current.scope.scopeId next
        [.apply (exampleDelayed .suspension [])] := by
  refine ⟨_, _, _, rfl, rfl, (revocation_closes_iff (exampleHeld [1]) _ exampleRevocation rfl rfl rfl).mpr
    ⟨rfl, fun before action after split _ => ?_⟩⟩
  cases before with
  | nil =>
    cases split
    intro transition effective
    obtain rfl : exampleDelayed .suspension [] = transition := Option.some.inj effective
    exact ⟨rfl, rfl⟩
  | cons _ _ => simp at split

/-- A revocation that carries an addition keeps it, and an expansion issued before the revocation
makes the subscription active again. -/
theorem revocation_reopened :
    ((final step default (exampleHeld [1])).apply (exampleMove .revocation 2 [1] [])).map (fun ended =>
        (ended.2.applied, ended.1.activeScopes 1 exampleEntity)) = .ok (true, {⟨1⟩}) ∧
    ((final step default (exampleHeld [1] ++
          [.apply exampleRevocation, .apply (exampleDelayed (.expansion ∅) [1])])).subscriptions[
        exampleRevocation.subscriptionId]?).map Subscription.state = some .active ∧
    (final step default (exampleHeld [1] ++
        [.apply exampleRevocation, .apply (exampleDelayed (.expansion ∅) [1])])).activeScopes 1 exampleEntity =
      {⟨1⟩} := by
  refine ⟨rfl, rfl, rfl⟩

end LocalScopeState

end Aequora.Scope
