import Aequora.Base.Check
import Aequora.SyncModel.Transition
import Mathlib.Order.Interval.Finset.Nat

/-! The invariant checks the model runs after each transition, with their
registry identifiers and messages, and what each one decides. -/

namespace Aequora.SyncModel

open Std Aequora.Base

/-- The registry identifiers the model's checks report. -/
inductive InvariantId where
  | idempotentAuthority | localIntentAtomicity | authoritativePublicationAtomicity | cursorSafety
  | versionMonotonicity | retryPreservation | reconciliationIdempotency | authorityRollbackSafety
  | authorityOldPrimaryFence | authoritySingleWriter | authorityNoAutomaticForkMerge
  | authorityLosslessEpochContinuity | authorityDivergenceEpoch | authorityOperationRecoveryPolicy
  | uniqueEventIdentity | eventCorrelation | causalityAcyclic | retryLineagePreservation
deriving DecidableEq

structure InvariantViolation where
  invariant : InvariantId
  detail : String
deriving DecidableEq

def ClientId.debug (client : ClientId) : String := s!"ClientId({client.id})"
def ModelOperationId.debug (operation : ModelOperationId) : String := s!"ModelOperationId({operation.id})"
def ModelEntityId.debug (entity : ModelEntityId) : String := s!"ModelEntityId({entity.id})"
def ModelEventId.debug (event : ModelEventId) : String := s!"ModelEventId({event.id})"

def ServerModel.effects (server : ServerModel) (operationId : ModelOperationId) : Nat :=
  (server.journal.filter fun event => event.operationId == operationId).length

section
variable (model : Model)

def Model.checkIdempotentAuthority : Except InvariantViolation Unit :=
  checkAll (fun operationId =>
    let effects := model.server.effects operationId
    require (effects ≤ 1)
      { invariant := .idempotentAuthority
        detail := s!"operation {operationId.debug} has {effects} journal effects" })
    model.server.appliedOperations.keys

def Model.checkLocalIntentAtomicity : Except InvariantViolation Unit :=
  checkAll (fun (clientId, client) =>
    checkAll (fun (entityId, optimistic) =>
      require (client.authoritativeState[entityId]? = some optimistic ∨
          client.outbox.any (fun operation => operation.entity == entityId) = true)
        { invariant := .localIntentAtomicity
          detail := s!"client {clientId.debug} has provisional entity {entityId.debug} without intent" })
      client.optimisticState.toList)
    model.clients.toList

def Model.checkAuthoritativePublicationAtomicity : Except InvariantViolation Unit := do
  checkAll (fun event =>
    require (model.server.appliedOperations[event.operationId]? =
        some (.accepted event.sequence event.version))
      { invariant := .authoritativePublicationAtomicity
        detail := s!"journal event {event.sequence} has no matching ledger result" })
    model.server.journal
  checkAll (fun (operationId, outcome) =>
    match outcome with
    | .accepted sequence version =>
      require (model.server.journal.any (fun event => event.operationId == operationId &&
          event.sequence == sequence && event.version == version) = true)
        { invariant := .authoritativePublicationAtomicity
          detail := s!"accepted operation {operationId.debug} has no matching journal event" }
    | .conflict _ => .ok ())
    model.server.appliedOperations.toList

def Model.checkCursorSafety : Except InvariantViolation Unit :=
  checkAll (fun (clientId, client) =>
    require (client.appliedEvents = Finset.Icc 1 client.cursor)
      { invariant := .cursorSafety
        detail := s!"client {clientId.debug} cursor {client.cursor} has non-contiguous applied events" })
    model.clients.toList

/-- The loop of `check_version_monotonicity` with the versions seen so far. -/
def checkVersions : ExtTreeMap ModelEntityId Nat → List ModelEvent → Except InvariantViolation Unit
  | _, [] => .ok ()
  | versions, event :: rest =>
    let previous := versions[event.entity]?.getD 0
    if event.version ≤ previous then
      .error
        { invariant := .versionMonotonicity
          detail := s!"entity {event.entity.debug} version {event.version} followed {previous}" }
    else checkVersions (versions.insert event.entity event.version) rest

def Model.checkVersionMonotonicity : Except InvariantViolation Unit :=
  checkVersions ∅ model.server.journal

def ModelOutcome.isAccepted : ModelOutcome → Bool
  | .accepted _ _ => true
  | .conflict _ => false

def Model.checkRetryPreservation : Except InvariantViolation Unit :=
  checkAll (fun (operationId, outcome) =>
    let effects := model.server.effects operationId
    let expected := outcome.isAccepted.toNat
    require (effects = expected)
      { invariant := .retryPreservation
        detail := s!"operation {operationId.debug} has {effects} effects, expected {expected}" })
    model.server.appliedOperations.toList

def Model.checkReconciliationIdempotency : Except InvariantViolation Unit :=
  checkAll (fun (clientId, client) =>
    require (client.appliedEvents.card = client.cursor)
      { invariant := .reconciliationIdempotency
        detail := s!"client {clientId.debug} applied-event cardinality differs from cursor" })
    model.clients.toList

def Model.checkTimelineSafety : Except InvariantViolation Unit :=
  checkAll (fun (clientId, client) =>
    require (client.cursorEpoch ≤ model.server.authorityEpoch)
      { invariant := .authorityRollbackSafety
        detail := s!"client {clientId.debug} has trusted epoch {client.cursorEpoch} above authority {model.server.authorityEpoch}" })
    model.clients.toList

/-- The request carries an operation its client holds back as ambiguous. -/
def ModelRequest.carriesAmbiguous (request : ModelRequest) (clientId : ClientId) (client : ClientModel) : Bool :=
  request.client == clientId &&
    request.operation.any fun operation => decide (operation.id ∈ client.ambiguousOldEpoch)

def checkTransition (transition : ModelAuthorityTransition) : Except InvariantViolation Unit := do
  require (¬(transition.continuityProven = true ∧ transition.oldEpoch ≠ transition.newEpoch))
    { invariant := .authorityLosslessEpochContinuity
      detail := "lossless promotion changed the authority epoch" }
  require (¬(transition.timelineChanged = true ∧ transition.oldEpoch = transition.newEpoch))
    { invariant := .authorityDivergenceEpoch
      detail := "timeline-changing promotion reused the authority epoch" }

def Model.checkAuthorityFailover : Except InvariantViolation Unit := do
  require (model.server.authorityInstance ∉ model.server.fencedInstances)
    { invariant := .authorityOldPrimaryFence
      detail := "the active authority instance is also marked fenced" }
  require (model.server.fenceToken ≠ 0)
    { invariant := .authoritySingleWriter
      detail := "the active authority has no valid fence token" }
  require (¬(model.server.forkQuarantined = true ∧ model.server.writesEnabled = true))
    { invariant := .authorityNoAutomaticForkMerge
      detail := "forked authority remained write-enabled" }
  checkAll checkTransition model.server.lastTransition.toList
  checkAll (fun (clientId, client) =>
    require (¬(model.network.requests.any (fun request => request.carriesAmbiguous clientId client) = true))
      { invariant := .authorityOperationRecoveryPolicy
        detail := s!"client {clientId.debug} sent an unresolved old-epoch operation" })
    model.clients.toList

/-- The event loop of `check_lineage` with the event identities seen so far. -/
def ServerModel.checkEvents (server : ServerModel) :
    Finset ModelEventId → List ModelEvent → Except InvariantViolation Unit
  | _, [] => .ok ()
  | eventIds, event :: rest => do
    require (event.eventId ∉ eventIds)
      { invariant := .uniqueEventIdentity
        detail := s!"event {event.eventId.debug} appears more than once" }
    require (server.operationCorrelations[event.operationId]? = some event.correlationId)
      { invariant := .eventCorrelation
        detail := s!"event {event.eventId.debug} lost its operation correlation" }
    require (event.causedBy = event.operationId)
      { invariant := .causalityAcyclic
        detail := s!"event {event.eventId.debug} has an invalid primary cause" }
    server.checkEvents (insert event.eventId eventIds) rest

def Model.checkLineage : Except InvariantViolation Unit := do
  model.server.checkEvents ∅ model.server.journal
  checkAll (fun operationId =>
    require (operationId ∈ model.server.operationCorrelations)
      { invariant := .retryLineagePreservation
        detail := s!"operation {operationId.debug} has no durable correlation" })
    model.server.appliedOperations.keys

/-- Every invariant in registry order, stopping at the first violation. -/
def Model.checkInvariants : Except InvariantViolation Unit := do
  model.checkIdempotentAuthority
  model.checkLocalIntentAtomicity
  model.checkAuthoritativePublicationAtomicity
  model.checkCursorSafety
  model.checkVersionMonotonicity
  model.checkRetryPreservation
  model.checkReconciliationIdempotency
  model.checkTimelineSafety
  model.checkAuthorityFailover
  model.checkLineage

end

variable {model : Model}

theorem Model.checkIdempotentAuthority_ok : model.checkIdempotentAuthority = .ok () ↔
      ∀ operationId ∈ model.server.appliedOperations, model.server.effects operationId ≤ 1 := by
  simp only [checkIdempotentAuthority, checkAll_keys_eq_ok, require_eq_ok]

theorem Model.checkLocalIntentAtomicity_ok : model.checkLocalIntentAtomicity = .ok () ↔
      ∀ (clientId : ClientId) client, model.clients[clientId]? = some client →
        ∀ entityId optimistic,
          client.optimisticState[entityId]? = some optimistic →
          client.authoritativeState[entityId]? = some optimistic ∨
            ∃ operation ∈ client.outbox, operation.entity = entityId := by
  simp only [checkLocalIntentAtomicity, checkAll_toList_eq_ok, require_eq_ok, List.any_eq_true, beq_iff_eq]

theorem Model.checkAuthoritativePublicationAtomicity_ok : model.checkAuthoritativePublicationAtomicity = .ok () ↔
      (∀ event ∈ model.server.journal, model.server.appliedOperations[event.operationId]? =
        some (.accepted event.sequence event.version)) ∧
      ∀ operationId sequence version,
        model.server.appliedOperations[operationId]? = some (.accepted sequence version) →
          ∃ event ∈ model.server.journal, event.operationId = operationId ∧
            event.sequence = sequence ∧ event.version = version := by
  rw [checkAuthoritativePublicationAtomicity, bind_eq_ok, checkAll_eq_ok, checkAll_toList_eq_ok]
  simp only [require_eq_ok]
  refine and_congr_right fun _ => ?_
  constructor
  · intro checked operationId sequence version recorded
    simpa [List.any_eq_true, and_assoc] using checked operationId _ recorded
  · intro published operationId outcome recorded
    cases outcome with
    | accepted sequence version =>
      simpa [List.any_eq_true, and_assoc] using published operationId sequence version recorded
    | conflict _ => rfl

theorem Model.checkCursorSafety_ok : model.checkCursorSafety = .ok () ↔
      ∀ (clientId : ClientId) client, model.clients[clientId]? = some client →
        client.appliedEvents = Finset.Icc 1 client.cursor := by
  simp only [checkCursorSafety, checkAll_toList_eq_ok, require_eq_ok]

theorem Model.checkRetryPreservation_ok : model.checkRetryPreservation = .ok () ↔
      ∀ operationId outcome, model.server.appliedOperations[operationId]? = some outcome →
        model.server.effects operationId = outcome.isAccepted.toNat := by
  simp only [checkRetryPreservation, checkAll_toList_eq_ok, require_eq_ok]

theorem Model.checkReconciliationIdempotency_ok : model.checkReconciliationIdempotency = .ok () ↔
      ∀ (clientId : ClientId) client, model.clients[clientId]? = some client →
        client.appliedEvents.card = client.cursor := by
  simp only [checkReconciliationIdempotency, checkAll_toList_eq_ok, require_eq_ok]

theorem Model.checkTimelineSafety_ok : model.checkTimelineSafety = .ok () ↔
      ∀ (clientId : ClientId) client, model.clients[clientId]? = some client →
        client.cursorEpoch ≤ model.server.authorityEpoch := by
  simp only [checkTimelineSafety, checkAll_toList_eq_ok, require_eq_ok]

theorem ModelRequest.carriesAmbiguous_iff {request : ModelRequest} {client : ClientModel} :
    request.carriesAmbiguous clientId client = true ↔
      request.client = clientId ∧ ∃ operation, request.operation = some operation ∧
        operation.id ∈ client.ambiguousOldEpoch := by
  cases carried : request.operation with
  | none => simp [carriesAmbiguous, carried]
  | some _ => simp [carriesAmbiguous, carried]

/-- What `check_authority_failover` decides, clause by clause. -/
structure Model.FailoverSafe (model : Model) : Prop where
  unfenced : model.server.authorityInstance ∉ model.server.fencedInstances
  token : model.server.fenceToken ≠ 0
  quarantine : ¬(model.server.forkQuarantined = true ∧ model.server.writesEnabled = true)
  continuity : ∀ transition, model.server.lastTransition = some transition →
    (transition.continuityProven = true → transition.oldEpoch = transition.newEpoch) ∧
    (transition.timelineChanged = true → transition.oldEpoch ≠ transition.newEpoch)
  withheld : ∀ clientId client, model.clients[clientId]? = some client →
    ∀ request ∈ model.network.requests, request.client = clientId →
      ∀ operation, request.operation = some operation → operation.id ∉ client.ambiguousOldEpoch

theorem checkTransition_ok : checkTransition transition = .ok () ↔
      (transition.continuityProven = true → transition.oldEpoch = transition.newEpoch) ∧
      (transition.timelineChanged = true → transition.oldEpoch ≠ transition.newEpoch) := by
  rw [checkTransition, bind_eq_ok, require_eq_ok, require_eq_ok]
  simp only [not_and, not_not, ne_eq]

theorem Model.checkAuthorityFailover_ok : model.checkAuthorityFailover = .ok () ↔ model.FailoverSafe := by
  simp only [checkAuthorityFailover, bind_eq_ok, require_eq_ok, checkAll_toList_eq_ok]
  simp only [checkAll_eq_ok, checkTransition_ok, Option.mem_toList, List.any_eq_true,
    ModelRequest.carriesAmbiguous_iff, not_exists, not_and]
  constructor
  · rintro ⟨unfenced, token, quarantine, continuity, withheld⟩
    exact ⟨unfenced, token, by simpa using quarantine, continuity, withheld⟩
  · rintro ⟨unfenced, token, quarantine, continuity, withheld⟩
    exact ⟨unfenced, token, by simpa using quarantine, continuity, withheld⟩

/-- What the event loop of `check_lineage` decides. -/
theorem ServerModel.checkEvents_ok {server : ServerModel} :
    server.checkEvents seen events = .ok () ↔
      (∀ event ∈ events, event.eventId ∉ seen) ∧ (events.map (·.eventId)).Nodup ∧
      ∀ event ∈ events, server.operationCorrelations[event.operationId]? = some event.correlationId ∧
        event.causedBy = event.operationId := by
  induction events generalizing seen with
  | nil => simp [checkEvents]
  | cons _ _ ih =>
    simp only [checkEvents, bind_eq_ok, require_eq_ok, ih, Finset.mem_insert, not_or,
      List.forall_mem_cons, List.map_cons, List.nodup_cons, List.mem_map, not_exists, not_and]
    grind

theorem Model.checkLineage_ok : model.checkLineage = .ok () ↔
      (model.server.journal.map (·.eventId)).Nodup ∧
      (∀ event ∈ model.server.journal,
        model.server.operationCorrelations[event.operationId]? = some event.correlationId ∧
          event.causedBy = event.operationId) ∧
      ∀ operationId ∈ model.server.appliedOperations,
        operationId ∈ model.server.operationCorrelations := by
  simp only [checkLineage, bind_eq_ok, ServerModel.checkEvents_ok, checkAll_keys_eq_ok,
    require_eq_ok, Finset.notMem_empty, not_false_eq_true, implies_true, true_and, and_assoc]

end Aequora.SyncModel
