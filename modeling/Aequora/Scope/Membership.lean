import Aequora.Base.Run
import Aequora.Scope.State

/-! Shared entities. References are counted for each projection and entity, and a transition drops
references before it adds them. -/

namespace Aequora.Scope

open Std Aequora.Base Aequora.Protocol Memberships Finset LocalScopeState ScopeTransitionOutcome Run

abbrev MembershipKey := ProjectionVersion × EntityRef

namespace Memberships
variable (held : Memberships) (scope : SyncScopeId) (key other : MembershipKey)

def holders : Finset SyncScopeId := held[key]?.getD ∅

/-- An entry without scopes is never kept. -/
def Referenced : Prop :=
  ∀ (key : MembershipKey) scopes, held[key]? = some scopes → scopes ≠ ∅

variable {held scope key other}

theorem mem_keysOf : key ∈ held.keysOf scope ↔ scope ∈ held.holders key := by
  simp only [keysOf, List.mem_map, List.mem_filter, decide_eq_true_eq]
  constructor
  · rintro ⟨⟨_, scopes⟩, ⟨listed, member⟩, rfl⟩
    have found := ExtTreeMap.mem_toList_iff_getElem?_eq_some.mp listed
    simpa [holders, found] using member
  · intro member
    cases found : held[key]? with
    | none => simp [holders, found] at member
    | some scopes =>
      exact ⟨(key, scopes), ⟨ExtTreeMap.mem_toList_iff_getElem?_eq_some.mpr found,
        by simpa [holders, found] using member⟩, rfl⟩

theorem holders_removeReference (entities : Finset EntityRef) :
    (removeReference scope (held, entities) key).1.holders other =
      if key = other then (held.holders other).erase scope else held.holders other := by
  unfold removeReference
  cases found : held[key]? with
  | none =>
    by_cases same : key = other
    · subst same
      simp [holders, found]
    · simp [same]
  | some _ =>
    dsimp only
    split
    · rename_i last
      rw [holders, lookup_erase]
      by_cases same : key = other
      · subst same
        simp [holders, found, last]
      · simp [holders, same]
    · rw [holders, lookup_insert]
      by_cases same : key = other
      · subst same
        simp [holders, found]
      · simp [holders, same]

theorem Referenced.removeReference (referenced : held.Referenced) (entities : Finset EntityRef) :
    (removeReference scope (held, entities) key).1.Referenced := by
  intro other scopes stored
  unfold Memberships.removeReference at stored
  split at stored
  · exact referenced other scopes stored
  · split at stored
    · rw [lookup_erase] at stored
      split at stored
      · cases stored
      · exact referenced other scopes stored
    · rename_i shared
      rw [lookup_insert] at stored
      split at stored
      · cases stored
        exact shared
      · exact referenced other scopes stored

theorem mem_removeReference (referenced : held.Referenced) :
    entity ∈ (removeReference scope (held, entities) key).2 ↔
      entity ∈ entities ∨ key.2 = entity ∧ held.holders key = {scope} := by
  unfold removeReference
  cases found : held[key]? with
  | none => simp [holders, found]
  | some scopes =>
    have nonempty := referenced key scopes found
    have only : scopes.erase scope = ∅ ↔ scopes = {scope} := by
      rw [erase_eq_empty_iff]
      simp [nonempty]
    by_cases last : scopes = {scope}
    · simp [last, holders, found, eq_comm, or_comm]
    · simp [only, last, holders, found]

section
variable (keys : List MembershipKey)

theorem holders_foldl_removeReference (start : Memberships × Finset EntityRef) :
    (keys.foldl (removeReference scope) start).1.holders other =
      if other ∈ keys then (start.1.holders other).erase scope else start.1.holders other := by
  convert foldl_pointwise (fun state => state.1.holders) (·.erase scope)
    (fun state _ _ => holders_removeReference state.2) (.inr fun _ => erase_idem) start other

theorem holders_clear (entities : Finset EntityRef) :
    ((held.keysOf scope).foldl (removeReference scope) (held, entities)).1.holders other =
      (held.holders other).erase scope := by
  rw [holders_foldl_removeReference]
  split
  · rfl
  · rename_i unlisted
    exact (erase_eq_of_notMem fun member => unlisted (mem_keysOf.mpr member)).symm

theorem Referenced.foldl_removeReference
    (referenced : start.1.Referenced) : (keys.foldl (Memberships.removeReference scope) start).1.Referenced := by
  induction keys generalizing start with
  | nil => exact referenced
  | cons _ _ ih => exact ih (referenced.removeReference start.2)

theorem mem_foldl_removeReference (referenced : start.1.Referenced) :
    entity ∈ (keys.foldl (removeReference scope) start).2 ↔
      entity ∈ start.2 ∨ ∃ key ∈ keys, key.2 = entity ∧ start.1.holders key = {scope} := by
  induction keys generalizing start with
  | nil => simp
  | cons first rest ih =>
    obtain ⟨before, entities⟩ := start
    rw [List.foldl_cons, ih (referenced.removeReference entities), mem_removeReference referenced]
    -- A key dropped by the first step holds nothing, so a repetition of it reports nothing.
    have later : (∃ key ∈ rest, key.2 = entity ∧
          (removeReference scope (before, entities) first).1.holders key = {scope}) ↔
        ∃ key ∈ rest, first ≠ key ∧ key.2 = entity ∧ before.holders key = {scope} := by
      refine exists_congr fun key => and_congr_right fun _ => ?_
      rw [holders_removeReference]
      by_cases same : first = key
      · simp only [same, if_true, ne_eq, not_true_eq_false, false_and, iff_false, not_and]
        intro _ whole
        exact notMem_erase scope _ (whole ▸ mem_singleton_self scope)
      · simp [same]
    rw [later]
    constructor
    · rintro ((known | ⟨named, only⟩) | ⟨key, member, _, named, only⟩)
      · exact .inl known
      · exact .inr ⟨first, List.mem_cons_self, named, only⟩
      · exact .inr ⟨key, List.mem_cons_of_mem first member, named, only⟩
    · rintro (known | ⟨key, member, named, only⟩)
      · exact .inl (.inl known)
      · by_cases same : first = key
        · exact .inl (.inr ⟨same ▸ named, same ▸ only⟩)
        · exact .inr ⟨key, (List.mem_cons.mp member).resolve_left (Ne.symm same), same, named, only⟩

theorem holders_addReference : (addReference scope held key).holders other =
      if key = other then insert scope (held.holders other) else held.holders other := by
  rw [holders, addReference, lookup_insert]
  by_cases same : key = other
  · subst same
    simp [holders]
  · simp [same, holders]

theorem holders_foldl_addReference (held : Memberships) :
    (keys.foldl (addReference scope) held).holders other =
      if other ∈ keys then insert scope (held.holders other) else held.holders other := by
  convert foldl_pointwise holders (insert scope) (fun _ _ _ => holders_addReference)
    (.inr fun _ => insert_idem ..) held other

theorem Referenced.foldl_addReference
    (referenced : held.Referenced) : (keys.foldl (addReference scope) held).Referenced := by
  induction keys generalizing held with
  | nil => exact referenced
  | cons _ _ ih =>
    refine ih fun other scopes stored => ?_
    rw [addReference, lookup_insert] at stored
    split at stored
    · cases stored
      exact insert_ne_empty _ _
    · exact referenced other scopes stored

end

end Memberships

namespace ScopeTransition
variable (transition : ScopeTransition)

/-- The transition gives up its scope's reference under the key. -/
def Drops (key : MembershipKey) : Prop :=
  transition.kind.clears = true ∨ key ∈ transition.removals.map fun removal => (removal.projection, removal.entity)

/-- The transition takes a reference under the key. -/
def Adds (key : MembershipKey) : Prop :=
  key ∈ transition.additions.map fun addition => (addition.projection, addition.entity)

instance (key : MembershipKey) : Decidable (transition.Drops key) := inferInstanceAs (Decidable (_ ∨ _))
instance (key : MembershipKey) : Decidable (transition.Adds key) := inferInstanceAs (Decidable (_ ∈ _))

end ScopeTransition

namespace LocalScopeState
variable {state : LocalScopeState}

def activeScopes (state : LocalScopeState) (projection : ProjectionVersion) (entity : EntityRef) :
    Finset SyncScopeId :=
  state.memberships.holders (projection, entity)

theorem holders_transfer (key : MembershipKey) :
    (state.transfer scope transition).1.holders key =
      let kept := if transition.Drops key then (state.memberships.holders key).erase scope
        else state.memberships.holders key
      if transition.Adds key then insert scope kept else kept := by
  rw [transfer, holders_foldl_addReference, holders_foldl_removeReference]
  by_cases clears : transition.kind.clears = true
  · rw [if_pos clears, holders_clear]
    simp [ScopeTransition.Drops, ScopeTransition.Adds, clears]
  · rw [if_neg clears]
    simp [ScopeTransition.Drops, ScopeTransition.Adds, clears]

theorem referenced_transfer (referenced : state.memberships.Referenced) :
    (state.transfer scope transition).1.Referenced := by
  apply Memberships.Referenced.foldl_addReference
  apply Memberships.Referenced.foldl_removeReference
  split
  · exact Memberships.Referenced.foldl_removeReference _ referenced
  · exact referenced

theorem mem_transfer (referenced : state.memberships.Referenced) :
    entity ∈ (state.transfer scope transition).2 ↔
      ∃ key : MembershipKey, key.2 = entity ∧ transition.Drops key ∧
        state.memberships.holders key = {scope} := by
  rw [transfer]
  by_cases clears : transition.kind.clears = true
  · rw [if_pos clears]
    have cleared : ((state.memberships.keysOf scope).foldl (removeReference scope)
        (state.memberships, ∅)).1.Referenced := Memberships.Referenced.foldl_removeReference _ referenced
    rw [mem_foldl_removeReference _ cleared, mem_foldl_removeReference _ referenced]
    -- No reference of the scope survives the clearing, so the listed removals report nothing new.
    have silent : ¬∃ key ∈ transition.removals.map fun removal => (removal.projection, removal.entity),
        key.2 = entity ∧ ((state.memberships.keysOf scope).foldl (removeReference scope)
          (state.memberships, ∅)).1.holders key = {scope} := by
      rintro ⟨key, _, _, only⟩
      rw [holders_clear] at only
      exact notMem_erase scope _ (only ▸ mem_singleton_self scope)
    simp only [silent, or_false, notMem_empty, false_or, ScopeTransition.Drops, clears, true_or,
      true_and]
    constructor
    · rintro ⟨key, _, named, only⟩
      exact ⟨key, named, only⟩
    · rintro ⟨key, named, only⟩
      exact ⟨key, mem_keysOf.mpr (only ▸ mem_singleton_self scope), named, only⟩
  · rw [if_neg clears, mem_foldl_removeReference _ referenced]
    simp only [notMem_empty, false_or, ScopeTransition.Drops, clears, Bool.false_eq_true]
    exact exists_congr fun key => and_left_comm

end LocalScopeState

/-- How a transition that is accepted ends. -/
inductive Accepted (state : LocalScopeState) (transition : ScopeTransition) :
    LocalScopeState → ScopeTransitionOutcome → Prop where
  | repeated (known : transition.transitionId ∈ state.appliedTransitions) :
      Accepted state transition state (.notApplied transition)
  | held
      (found : state.subscriptions[transition.subscriptionId]? = some current)
      (valid : transition.validate current = .ok ()) (stages : transition.kind.stages = true) :
      Accepted state transition (state.hold current transition) (.notApplied transition)
  | applied
      (found : state.subscriptions[transition.subscriptionId]? = some current)
      (valid : transition.validate current = .ok ())
      (entered : moved current transition = .ok subscription) :
      Accepted state transition
        { subscriptions := state.subscriptions.insert transition.subscriptionId subscription
          memberships := (state.transfer current.scope.scopeId transition).1
          appliedTransitions := insert transition.transitionId state.appliedTransitions
          quarantinedOperations := quarantine state.quarantinedOperations
            transition.affectedPendingOperations transition.kind.disposition }
        { transitionId := transition.transitionId
          applied := true
          physicalRemovals := (state.transfer current.scope.scopeId transition).2
          quarantinedOperations := transition.affectedPendingOperations.toFinset }

namespace LocalScopeState
theorem apply_accepted (accepted : state.apply transition = .ok (next, outcome)) :
    Accepted state transition next outcome := by
  unfold apply at accepted
  split at accepted
  · rename_i known
    cases accepted
    exact .repeated known
  · unfold applyChecked at accepted
    split at accepted
    · cases accepted
    · rename_i current found
      obtain ⟨_, valid, accepted⟩ := bind_eq_ok_iff.mp accepted
      split at accepted
      · rename_i staged
        cases accepted
        exact .held found valid staged.2
      · obtain ⟨_, entered, accepted⟩ := bind_eq_ok_iff.mp accepted
        cases accepted
        exact .applied found valid entered

end LocalScopeState

inductive ScopeAction where
  | install (subscription : Subscription)
  | apply (transition : ScopeTransition)

namespace LocalScopeState
variable {state : LocalScopeState}

/-- The state after a call; a call that fails leaves it alone. -/
def step (state : LocalScopeState) : ScopeAction → LocalScopeState
  | .install subscription =>
    match state.install subscription with
    | .ok next => next
    | .error _ => state
  | .apply transition =>
    match state.apply transition with
    | .ok (next, _) => next
    | .error _ => state

/-- What every call keeps: entries are referenced and no two subscriptions share a scope. -/
structure Coherent (state : LocalScopeState) : Prop where
  referenced : state.memberships.Referenced
  distinct : ∀ (first second : SubscriptionId) one other,
    state.subscriptions[first]? = some one → state.subscriptions[second]? = some other →
      one.scope.scopeId = other.scope.scopeId → first = second

theorem Coherent.default : default.Coherent where
  referenced key scopes stored := by simp [LocalScopeState.default] at stored
  distinct first second one other stored := by simp [LocalScopeState.default] at stored

/-- A subscription may be stored under its identity if no other one is bound to its scope. -/
theorem distinct_insert (coherent : state.Coherent)
    (alone : ∀ (other : SubscriptionId) known, state.subscriptions[other]? = some known →
      known.scope.scopeId = subscription.scope.scopeId → other = subscriptionId)
    (first second : SubscriptionId) (one other : Subscription)
    (left : (state.subscriptions.insert subscriptionId subscription)[first]? = some one)
    (right : (state.subscriptions.insert subscriptionId subscription)[second]? = some other)
    (same : one.scope.scopeId = other.scope.scopeId) : first = second := by
  rw [lookup_insert] at left right
  split at left
  · rename_i here
    cases left
    split at right
    · rename_i there
      exact here.symm.trans there
    · exact here.symm.trans (alone second other right same.symm).symm
  · split at right
    · rename_i there
      cases right
      exact (alone first one left same).trans there
    · exact coherent.distinct first second one other left right same

theorem Coherent.accepted (coherent : state.Coherent) (ended : Accepted state transition next outcome) :
    next.Coherent := by
  cases ended with
  | repeated => exact coherent
  | held found valid =>
    refine ⟨coherent.referenced, distinct_insert coherent fun other known stored same => ?_⟩
    exact coherent.distinct other _ known _ stored found same
  | applied found valid entered =>
    refine ⟨referenced_transfer coherent.referenced, distinct_insert coherent fun other known stored same => ?_⟩
    exact coherent.distinct other _ known _ stored found (same.trans (moved_follows valid entered).scopeId)

theorem Coherent.step (coherent : state.Coherent) (action : ScopeAction) : (state.step action).Coherent := by
  cases action with
  | install _ =>
    rw [LocalScopeState.step]
    split
    · rename_i next installed
      obtain ⟨_, free, installed⟩ := bind_eq_ok_iff.mp installed
      obtain ⟨_, unbound⟩ := require_eq_ok.mp free
      cases installed
      refine ⟨coherent.referenced, distinct_insert coherent fun other known stored same => ?_⟩
      exact absurd same (unbound known (mem_values.mpr ⟨other, stored⟩))
    · exact coherent
  | apply _ =>
    rw [LocalScopeState.step]
    split
    · rename_i accepted
      exact coherent.accepted (apply_accepted accepted)
    · exact coherent

theorem coherent_of_run (actions : List ScopeAction) :
    (final step LocalScopeState.default actions).Coherent :=
  (Throughout.of_invariant Coherent.default fun _ action before => before.step action).final

end LocalScopeState

/-- The transition drops an entity's only reference under one projection although the entity is
added again, or still held under another one. -/
def ScopeTransition.RemovesShared (transition : ScopeTransition) (held : Memberships) (scope : SyncScopeId) : Prop :=
  ∃ key other, key.2 = other.2 ∧ transition.Drops key ∧ held.holders key = {scope} ∧
    (transition.Adds other ∨ ∃ holder ∈ held.holders other, holder ≠ scope ∨ ¬transition.Drops other)

namespace LocalScopeState
variable {state : LocalScopeState}

theorem holders_transfer_ne_empty : (state.transfer scope transition).1.holders key ≠ ∅ ↔
      transition.Adds key ∨ ∃ holder ∈ state.memberships.holders key, holder ≠ scope ∨ ¬transition.Drops key := by
  rw [holders_transfer]
  by_cases adds : transition.Adds key
  · simp [adds]
  · by_cases drops : transition.Drops key
    · simp [adds, drops, eq_empty_iff_forall_notMem, mem_erase, and_comm]
    · simp [adds, drops, eq_empty_iff_forall_notMem]

/-- Entities reported for physical removal are held by no scope exactly when the transition that
took effect does not remove an entity it shares with another projection or adds again. -/
theorem physicalRemovals_unheld_iff (actions : List ScopeAction) (transition : ScopeTransition)
    (accepted : (final step default actions).apply transition = .ok (next, outcome)) :
    (∀ entity ∈ outcome.physicalRemovals, ∀ projection, next.activeScopes projection entity = ∅) ↔
      (outcome.applied = true → ∀ current,
        (final step default actions).subscriptions[transition.subscriptionId]? = some current →
          ¬transition.RemovesShared (final step default actions).memberships current.scope.scopeId) := by
  have coherent := coherent_of_run actions
  cases apply_accepted accepted with
  | repeated => simp [notApplied]
  | held => simp [notApplied]
  | @applied _ _ found _ _ =>
    simp only [found, Option.some.injEq, forall_eq', forall_true_left]
    constructor
    · rintro unheld ⟨key, other, same, drops, only, kept⟩
      have reported := (mem_transfer coherent.referenced).mpr ⟨key, rfl, drops, only⟩
      have empty := unheld key.2 reported other.1
      rw [same] at empty
      exact holders_transfer_ne_empty.mpr kept empty
    · intro unshared entity reported projection
      obtain ⟨key, named, drops, only⟩ := (mem_transfer coherent.referenced).mp reported
      by_contra kept
      exact unshared ⟨key, (projection, entity), named, drops, only, holders_transfer_ne_empty.mp kept⟩

end LocalScopeState

/-- A scope of one tenant, at a version of its first generation. -/
def exampleScope (version : ScopeVersion) : ResolvedScope where
  scopeId := ⟨1⟩
  version
  generation := 1
  descriptor :=
    { tenantId := ⟨1⟩, definition := 1, partitions := ∅, policyVersion := 1, projection := 1 }

def exampleSubscription : Subscription where
  subscriptionId := ⟨1⟩
  scope := exampleScope 1
  state := .requested
  cursor := none
  pendingTransition := none

def exampleEntity : EntityRef := { entityType := 1, entityId := ⟨1⟩ }

/-- A complete transition to the next version that moves the entity under the given projections. -/
def exampleMove (kind : ScopeTransitionKind) (version : ScopeVersion)
    (additions removals : List ProjectionVersion) : ScopeTransition where
  transitionId := ⟨BitVec.ofNat 128 version⟩
  subscriptionId := ⟨1⟩
  fromVersion := version
  fromGeneration := 1
  target := if kind.closes then none else some (exampleScope (version + 1))
  boundary := if kind.closes then none
    else some { scopeId := ⟨1⟩, version := version + 1, generation := 1, sequence := 0 }
  kind
  additions := additions.map fun projection =>
    { scopeId := ⟨1⟩, projection, entity := exampleEntity, membershipVersion := version }
  removals := removals.map fun projection =>
    { scopeId := ⟨1⟩, projection, entity := exampleEntity, reason := .membershipChanged }
  affectedPendingOperations := []
  stagingComplete := true

def exampleHeld (projections : List ProjectionVersion) : List ScopeAction :=
  [.install exampleSubscription, .apply (exampleMove .fullBootstrap 1 projections [])]

def exampleContraction : ScopeTransition := exampleMove (.contraction ∅ .removeImmediately) 2 [] [1]

namespace LocalScopeState

/-- An entity leaves the only projection it was held under. -/
theorem physicalRemovals_unheld_single :
    ∃ next outcome, (final step default (exampleHeld [1])).apply exampleContraction = .ok (next, outcome) ∧
      ∀ entity ∈ outcome.physicalRemovals, ∀ projection, next.activeScopes projection entity = ∅ := by
  have held (key : MembershipKey) : (final step default (exampleHeld [1])).memberships.holders key =
      if (1, exampleEntity) = key then {⟨1⟩} else ∅ := by
    rw [show (final step default (exampleHeld [1])).memberships =
      ExtTreeMap.insert ∅ (1, exampleEntity) {⟨1⟩} from rfl, holders, lookup_insert]
    split <;> simp
  refine ⟨_, _, rfl, (physicalRemovals_unheld_iff (exampleHeld [1]) exampleContraction rfl).mpr ?_⟩
  rintro _ _ _ ⟨key, other, _, drops, only, adds | ⟨_, member, kept⟩⟩
  · cases adds
  · have here : key = (1, exampleEntity) := by
      rcases drops with clears | listed
      · cases clears
      · exact List.mem_singleton.mp listed
    subst here
    rw [held] at member only
    by_cases there : (1, exampleEntity) = other
    · subst there
      rw [only] at member
      rcases kept with different | stays
      · exact different (mem_singleton.mp member)
      · exact stays drops
    · simp [there] at member

/-- An entity is reported while another projection still holds it, and while the same bootstrap
adds it again. -/
theorem physicalRemovals_report_held :
    ((final step default (exampleHeld [1, 2])).apply exampleContraction).map (fun ended =>
        (ended.2.physicalRemovals, ended.1.activeScopes 2 exampleEntity)) =
      .ok ({exampleEntity}, {⟨1⟩}) ∧
    ((final step default (exampleHeld [1])).apply (exampleMove .fullBootstrap 2 [1] [])).map (fun ended =>
        (ended.2.physicalRemovals, ended.1.activeScopes 1 exampleEntity)) =
      .ok ({exampleEntity}, {⟨1⟩}) := by
  constructor <;> rfl

end LocalScopeState

end Aequora.Scope
