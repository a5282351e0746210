import Aequora.Base.Check
import Aequora.Protocol.Types

/-! The scope state of a client: its subscriptions, which scopes hold an entity, and the pending
operations that a loss of authorization withholds. -/

namespace Aequora.Scope

open Std Aequora.Base Aequora.Protocol

abbrev ScopeVersion := Nat
abbrev ScopeGeneration := Nat
abbrev ProjectionVersion := UInt32

structure DatasetPartitionId where
  kind : UInt16
  value : List UInt8

structure ScopeDescriptor where
  tenantId : TenantId
  definition : UInt32
  partitions : Finset DatasetPartitionId
  policyVersion : UInt32
  projection : ProjectionVersion

structure ResolvedScope where
  scopeId : SyncScopeId
  version : ScopeVersion
  generation : ScopeGeneration
  descriptor : ScopeDescriptor

structure ScopeCursor where
  scopeId : SyncScopeId
  version : ScopeVersion
  generation : ScopeGeneration
  sequence : Sequence

inductive SubscriptionState where
  | requested | resolved | bootstrapping | active | expanding | contracting | suspended | revoked
  | resyncRequired

structure Subscription where
  subscriptionId : SubscriptionId
  scope : ResolvedScope
  state : SubscriptionState
  cursor : Option ScopeCursor
  pendingTransition : Option ScopeTransitionId

inductive ScopeRemovalReason where
  | membershipChanged | permissionDowngrade | subscriptionEnded | revoked

structure ScopeRemoval where
  scopeId : SyncScopeId
  projection : ProjectionVersion
  entity : EntityRef
  reason : ScopeRemovalReason

structure MembershipRecord where
  scopeId : SyncScopeId
  projection : ProjectionVersion
  entity : EntityRef
  membershipVersion : ScopeVersion

inductive PendingIntentDisposition where
  | authorizationLost | scopeRevoked | scopeRemoved
deriving DecidableEq

inductive LocalRetentionPolicy where
  | removeImmediately
  | retainReadOnly
  | retainUntilUnixMs (time : Nat)
  | applicationManaged

inductive ScopeTransitionKind where
  | fullBootstrap
  | expansion (addedPartitions : Finset DatasetPartitionId)
  | contraction (removedPartitions : Finset DatasetPartitionId) (retention : LocalRetentionPolicy)
  | revocation
  | suspension
  | generationReset

namespace ScopeTransitionKind

def closes : ScopeTransitionKind → Bool
  | .revocation | .suspension => true
  | _ => false

def restarts : ScopeTransitionKind → Bool
  | .generationReset | .fullBootstrap => true
  | _ => false

def stages : ScopeTransitionKind → Bool
  | .expansion _ | .fullBootstrap | .generationReset => true
  | _ => false

def clears : ScopeTransitionKind → Bool
  | .fullBootstrap | .generationReset | .revocation => true
  | _ => false

def disposition : ScopeTransitionKind → PendingIntentDisposition
  | .revocation => .scopeRevoked
  | .contraction _ _ => .scopeRemoved
  | _ => .authorizationLost

def stagingState : ScopeTransitionKind → SubscriptionState
  | .expansion _ => .expanding
  | _ => .bootstrapping

end ScopeTransitionKind

structure ScopeTransition where
  transitionId : ScopeTransitionId
  subscriptionId : SubscriptionId
  fromVersion : ScopeVersion
  fromGeneration : ScopeGeneration
  target : Option ResolvedScope
  boundary : Option ScopeCursor
  kind : ScopeTransitionKind
  additions : List MembershipRecord
  removals : List ScopeRemoval
  affectedPendingOperations : List OperationId
  stagingComplete : Bool

inductive ScopeError where
  | duplicateSubscription | unknownSubscription | staleTransition | invalidTransition

def ScopeError.text : ScopeError → String
  | .duplicateSubscription => "subscription identity or scope is already installed"
  | .unknownSubscription => "subscription is not installed"
  | .staleTransition => "scope transition does not match current version or generation"
  | .invalidTransition => "scope transition mixes identities or violates activation rules"

namespace ScopeTransition
variable (transition : ScopeTransition) (current : Subscription)

/-- A closing transition names no target; any other moves its scope to a newer binding. -/
def validateTarget : Except ScopeError Unit :=
  if transition.kind.closes then
    require (transition.target = none ∧ transition.boundary = none) .invalidTransition
  else
    match transition.target, transition.boundary with
    | some target, some boundary => do
      require (target.scopeId = current.scope.scopeId ∧ boundary.scopeId = target.scopeId ∧
        boundary.version = target.version ∧ boundary.generation = target.generation ∧
        target.descriptor.tenantId = current.scope.descriptor.tenantId) .invalidTransition
      if target.generation = transition.fromGeneration then
        require (transition.fromVersion < target.version) .staleTransition
      else
        require (transition.fromGeneration < target.generation ∧ transition.kind.restarts = true)
          .invalidTransition
    | _, _ => .error .invalidTransition

def validate : Except ScopeError Unit := do
  require (current.subscriptionId = transition.subscriptionId ∧
    current.scope.version = transition.fromVersion ∧
    current.scope.generation = transition.fromGeneration) .staleTransition
  transition.validateTarget current
  require ((∀ addition ∈ transition.additions, addition.scopeId = current.scope.scopeId) ∧
    ∀ removal ∈ transition.removals, removal.scopeId = current.scope.scopeId) .invalidTransition

end ScopeTransition

structure ScopeTransitionOutcome where
  transitionId : ScopeTransitionId
  applied : Bool
  physicalRemovals : Finset EntityRef
  quarantinedOperations : Finset OperationId

def ScopeTransitionOutcome.notApplied (transition : ScopeTransition) : ScopeTransitionOutcome where
  transitionId := transition.transitionId
  applied := false
  physicalRemovals := ∅
  quarantinedOperations := ∅

abbrev Memberships := ExtTreeMap (ProjectionVersion × EntityRef) (Finset SyncScopeId)

namespace Memberships

/-- Drop a scope's reference; the last one removes the entity. -/
def removeReference (scope : SyncScopeId) (held : Memberships × Finset EntityRef)
    (key : ProjectionVersion × EntityRef) : Memberships × Finset EntityRef :=
  match held.1[key]? with
  | none => held
  | some scopes =>
    if scopes.erase scope = ∅ then (held.1.erase key, insert key.2 held.2)
    else (held.1.insert key (scopes.erase scope), held.2)

def addReference (scope : SyncScopeId) (held : Memberships) (key : ProjectionVersion × EntityRef) : Memberships :=
  held.insert key (insert scope (held[key]?.getD ∅))

def keysOf (held : Memberships) (scope : SyncScopeId) : List (ProjectionVersion × EntityRef) :=
  (held.toList.filter fun entry => decide (scope ∈ entry.2)).map Prod.fst

end Memberships

structure LocalScopeState where
  subscriptions : ExtTreeMap SubscriptionId Subscription
  memberships : Memberships
  appliedTransitions : Finset ScopeTransitionId
  quarantinedOperations : ExtTreeMap OperationId PendingIntentDisposition

namespace LocalScopeState

def default : LocalScopeState where
  subscriptions := ∅
  memberships := ∅
  appliedTransitions := ∅
  quarantinedOperations := ∅

variable (state : LocalScopeState)

def install (subscription : Subscription) : Except ScopeError LocalScopeState := do
  require (state.subscriptions[subscription.subscriptionId]? = none ∧
    ∀ known ∈ state.subscriptions.values, known.scope.scopeId ≠ subscription.scope.scopeId)
    .duplicateSubscription
  return { state with
    subscriptions := state.subscriptions.insert subscription.subscriptionId subscription }

def pendingDisposition (operation : OperationId) : Option PendingIntentDisposition :=
  state.quarantinedOperations[operation]?

section
variable (current : Subscription) (transition : ScopeTransition)

/-- Remember a transition whose data is not complete yet. -/
def hold : LocalScopeState :=
  { state with
    subscriptions := state.subscriptions.insert transition.subscriptionId
      { current with
        state := transition.kind.stagingState
        pendingTransition := some transition.transitionId } }

/-- The memberships after a transition and the entities that no scope holds any more. -/
def transfer (scope : SyncScopeId) (transition : ScopeTransition) : Memberships × Finset EntityRef :=
  let cleared :=
    if transition.kind.clears then
      (state.memberships.keysOf scope).foldl (Memberships.removeReference scope) (state.memberships, ∅)
    else (state.memberships, ∅)
  let removed := (transition.removals.map fun removal => (removal.projection, removal.entity)).foldl
    (Memberships.removeReference scope) cleared
  ((transition.additions.map fun addition => (addition.projection, addition.entity)).foldl
    (Memberships.addReference scope) removed.1, removed.2)

/-- Withhold operations from being sent. -/
def quarantine (held : ExtTreeMap OperationId PendingIntentDisposition) (operations : List OperationId)
    (disposition : PendingIntentDisposition) : ExtTreeMap OperationId PendingIntentDisposition :=
  operations.foldl (fun built operation => built.insert operation disposition) held

/-- The subscription after a transition took effect. -/
def moved : Except ScopeError Subscription :=
  match transition.kind with
  | .revocation => .ok { current with state := .revoked, cursor := none, pendingTransition := none }
  | .suspension => .ok { current with state := .suspended, pendingTransition := none }
  | _ =>
    match transition.target with
    | none => .error .invalidTransition
    | some target =>
      .ok { current with
        scope := target
        cursor := transition.boundary
        state := .active
        pendingTransition := none }

end

def applyChecked (transition : ScopeTransition) : Except ScopeError (LocalScopeState × ScopeTransitionOutcome) :=
  match state.subscriptions[transition.subscriptionId]? with
  | none => .error .unknownSubscription
  | some current => do
    transition.validate current
    if transition.stagingComplete = false ∧ transition.kind.stages = true then
      return (state.hold current transition, .notApplied transition)
    else
      let (memberships, physicalRemovals) := state.transfer current.scope.scopeId transition
      let subscription ← moved current transition
      return ({
        subscriptions := state.subscriptions.insert transition.subscriptionId subscription
        memberships
        appliedTransitions := insert transition.transitionId state.appliedTransitions
        quarantinedOperations := quarantine state.quarantinedOperations
          transition.affectedPendingOperations transition.kind.disposition }, {
        transitionId := transition.transitionId
        applied := true
        physicalRemovals
        quarantinedOperations := transition.affectedPendingOperations.toFinset })

/-- A transition is applied at most once. -/
def apply (transition : ScopeTransition) : Except ScopeError (LocalScopeState × ScopeTransitionOutcome) :=
  if transition.transitionId ∈ state.appliedTransitions then
    .ok (state, .notApplied transition)
  else state.applyChecked transition

end LocalScopeState

/-! ### Where a transition takes its subscription -/

namespace ResolvedScope

/-- Generations come first, versions count within one. -/
def Before (first second : ResolvedScope) : Prop :=
  first.generation < second.generation ∨ first.generation = second.generation ∧ first.version < second.version

def UpTo (first second : ResolvedScope) : Prop :=
  first.Before second ∨ first.generation = second.generation ∧ first.version = second.version

theorem upTo_refl (scope : ResolvedScope) : scope.UpTo scope := .inr ⟨rfl, rfl⟩

end ResolvedScope

/-- A cursor belongs to the scope as it is bound now. -/
def Subscription.CursorBound (subscription : Subscription) : Prop :=
  ∀ cursor ∈ subscription.cursor, cursor.scopeId = subscription.scope.scopeId ∧
    cursor.version = subscription.scope.version ∧ cursor.generation = subscription.scope.generation

/-- A later binding of the same subscription. -/
structure Subscription.Follows (later earlier : Subscription) : Prop where
  scopeId : later.scope.scopeId = earlier.scope.scopeId
  tenant : later.scope.descriptor.tenantId = earlier.scope.descriptor.tenantId
  upTo : earlier.scope.UpTo later.scope

theorem Subscription.follows_refl (subscription : Subscription) : subscription.Follows subscription :=
  ⟨rfl, rfl, ResolvedScope.upTo_refl _⟩

/-- A transition that moves its scope names a newer binding and a cursor of it. -/
theorem ScopeTransition.validate_open {transition : ScopeTransition}
    (moves : transition.kind.closes = false) (valid : transition.validate current = .ok ()) :
    ∃ target boundary, transition.target = some target ∧ transition.boundary = some boundary ∧
      target.scopeId = current.scope.scopeId ∧ boundary.scopeId = target.scopeId ∧
      boundary.version = target.version ∧ boundary.generation = target.generation ∧
      target.descriptor.tenantId = current.scope.descriptor.tenantId ∧ current.scope.Before target := by
  simp only [validate, bind_eq_ok, require_eq_ok] at valid
  obtain ⟨⟨-, version, generation⟩, targeted, -⟩ := valid
  rw [validateTarget, moves, if_neg Bool.false_ne_true] at targeted
  split at targeted
  · rename_i target boundary named placed
    obtain ⟨checked, newer⟩ := bind_eq_ok.mp targeted
    obtain ⟨scope, same, ends, reset, tenant⟩ := require_eq_ok.mp checked
    refine ⟨target, boundary, named, placed, scope, same, ends, reset, tenant, ?_⟩
    rw [ResolvedScope.Before, version, generation]
    split at newer
    · rename_i kept
      exact .inr ⟨kept.symm, require_eq_ok.mp newer⟩
    · exact .inl (require_eq_ok.mp newer).1
  · cases targeted

namespace LocalScopeState
theorem moved_open (moves : transition.kind.closes = false) (valid : transition.validate current = .ok ())
    (entered : moved current transition = .ok subscription) :
    subscription.Follows current ∧ current.scope.Before subscription.scope ∧ subscription.CursorBound := by
  obtain ⟨target, boundary, _, _, scope, same, ends, reset, tenant, newer⟩ :=
    transition.validate_open moves valid
  have arrived : subscription = { current with
      scope := target, cursor := some boundary, state := .active, pendingTransition := none } := by
    unfold moved at entered
    cases kind : transition.kind <;> simp_all [ScopeTransitionKind.closes]
  rw [arrived]
  refine ⟨⟨scope, tenant, .inl newer⟩, newer, fun cursor found => ?_⟩
  cases found
  exact ⟨same, ends, reset⟩

theorem moved_closed (ends : transition.kind.closes = true) (entered : moved current transition = .ok subscription) :
    subscription.Follows current ∧ (current.CursorBound → subscription.CursorBound) := by
  have arrived : subscription.scope = current.scope ∧
      (subscription.cursor = none ∨ subscription.cursor = current.cursor) := by
    unfold moved at entered
    split at entered
    · cases entered
      exact ⟨rfl, .inl rfl⟩
    · cases entered
      exact ⟨rfl, .inr rfl⟩
    · cases kind : transition.kind <;> simp_all [ScopeTransitionKind.closes]
  obtain ⟨scope, cursor⟩ := arrived
  refine ⟨⟨by rw [scope], by rw [scope], by rw [scope]; exact ResolvedScope.upTo_refl _⟩, fun bound => ?_⟩
  rw [Subscription.CursorBound, scope]
  obtain none | kept := cursor
  · rw [none]
    exact nofun
  · rw [kept]
    exact bound

theorem moved_follows (valid : transition.validate current = .ok ())
    (entered : moved current transition = .ok subscription) : subscription.Follows current := by
  cases kind : transition.kind.closes with
  | false => exact (moved_open kind valid entered).1
  | true => exact (moved_closed kind entered).1

end LocalScopeState

end Aequora.Scope
