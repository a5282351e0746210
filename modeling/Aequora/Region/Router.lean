import Aequora.Base.Check
import Aequora.Protocol.Types
import Mathlib.Data.List.Sort

/-! Regional reads: the guard a replica runs before it serves, and the router that picks a replica,
the authority, or an allowed weaker read. -/

namespace Aequora.Region

open Std Aequora.Base Aequora.Protocol

structure ReplicaId where
  uuid : BitVec 128
deriving DecidableEq

instance replicaIdOrd : Ord ReplicaId := ⟨compareOn ReplicaId.uuid⟩
instance replicaIdTransOrd : TransOrd ReplicaId := inferInstanceAs (TransCmp (compareOn ReplicaId.uuid))
instance replicaIdLawfulEqOrd : LawfulEqOrd ReplicaId :=
  lawfulEq_compareOn ReplicaId.uuid (by rintro ⟨_⟩ ⟨_⟩ rfl; rfl)

abbrev RegionId := UInt16
abbrev ProjectionId := UInt32
abbrev ProjectionSchemaVersion := UInt32

abbrev Duration := Nat

inductive RegionalRole where
  | authorityWriter | readReplica | edgeOnly | recoveryStandby
deriving DecidableEq

inductive RegionMode where
  | healthy | readOnlyStale | disconnected | promotionCandidate
deriving DecidableEq

inductive RegionHealth where
  | healthy | degraded | unavailable
deriving DecidableEq

def RegionHealth.rank : RegionHealth → Nat
  | .healthy => 0
  | .degraded => 1
  | .unavailable => 2

structure ReplicaWatermark where
  authorityId : AuthorityId
  authorityEpoch : AuthorityEpoch
  sequence : Sequence

/-- Durable apply position for a journal-derived regional projection. -/
structure ProjectionWatermark where
  projectionId : ProjectionId
  schemaVersion : ProjectionSchemaVersion
  authorityId : AuthorityId
  authorityEpoch : AuthorityEpoch
  sequence : Sequence

inductive ReadConsistency where
  | eventual
  | atLeast (sequence : Sequence)
  | session
  | authority
deriving DecidableEq

inductive RegionError where
  | authorityMismatch
  | epochRollback (trusted received : AuthorityEpoch)
  | wrongEpoch (available required : AuthorityEpoch)
  | missingSessionWatermark
  | replicaTooStale (available required : Sequence)
  | authorizationTooStale (available : Option Sequence) (required : Sequence)
  | stalenessBudgetExceeded
  | notReadReplica
  | replicaUnavailable
  | noEligibleReplica
  | authorityUnavailable
  | projectionUnavailable
  | projectionIncompatible
  | invalidLoad
  | unboundedReplicaWait
  | invalidEndpoint
  | untrustedDirectoryAssignment
  | residencyViolation
  | directoryRollback
  | tenantAssignmentMissing
  | notAuthorityWriter
  | staleControlPlane

structure SessionWatermark where
  authorityId : AuthorityId
  authorityEpoch : AuthorityEpoch
  minSequence : Sequence

/-- Advances the session, starting over on a newer epoch. -/
def SessionWatermark.observe (session : SessionWatermark) (authorityId : AuthorityId)
    (authorityEpoch : AuthorityEpoch) (sequence : Sequence) : Except RegionError SessionWatermark := do
  require (authorityId = session.authorityId) .authorityMismatch
  require (¬authorityEpoch < session.authorityEpoch) (.epochRollback session.authorityEpoch authorityEpoch)
  return if session.authorityEpoch < authorityEpoch then
    { session with authorityEpoch, minSequence := sequence }
  else if session.minSequence < sequence then { session with minSequence := sequence }
  else session

inductive StalenessBudget where
  | none
  | maxSequenceLag (maximum : Nat)
  | maxDuration (maximum : Duration)
deriving DecidableEq

inductive ReadFallbackPolicy where
  | neverDowngrade | allowEventual | allowBoundedStale
deriving DecidableEq

structure EndpointReadPolicy where
  consistency : ReadConsistency
  stalenessBudget : StalenessBudget
  fallback : ReadFallbackPolicy
  (allowAuthorityFallback authorizationSensitive : Bool)

structure AuthorityLocation where
  endpoint : String
  authorityId : AuthorityId
  authorityEpoch : AuthorityEpoch

def AuthorityLocation.validate (location : AuthorityLocation) : Except RegionError Unit :=
  require (¬(location.endpoint.utf8ByteSize = 0 ∨ location.endpoint.utf8ByteSize > 2048)) .invalidEndpoint

/-- One observed regional replica. -/
structure ReplicaObservation where
  replicaId : ReplicaId
  regionId : RegionId
  role : RegionalRole
  watermark : ReplicaWatermark
  projection : Option ProjectionWatermark
  authorizationSequence : Option Sequence
  observedAuthoritySequence : Sequence
  approximateTimeLag : Duration
  health : RegionHealth
  mode : RegionMode
  (priority loadBasisPoints : UInt16)
  maintenance : Bool

namespace ReplicaObservation

def sequenceLag (observation : ReplicaObservation) : Nat :=
  observation.observedAuthoritySequence - observation.watermark.sequence

def validate (observation : ReplicaObservation) : Except RegionError Unit :=
  require (¬observation.loadBasisPoints.toNat > 10000) .invalidLoad

end ReplicaObservation

structure RegionalReadRequest where
  authorityId : AuthorityId
  authorityEpoch : AuthorityEpoch
  policy : EndpointReadPolicy
  session : Option SessionWatermark
  regionHint : Option RegionId
  requiredProjection : Option (ProjectionId × ProjectionSchemaVersion)
  minimumAuthorizationSequence : Option Sequence

def RegionalReadRequest.requiredSequence (request : RegionalReadRequest) : Except RegionError (Option Sequence) :=
  match request.policy.consistency with
  | .eventual | .authority => .ok none
  | .atLeast sequence => .ok (some sequence)
  | .session =>
    match request.session with
    | none => .error .missingSessionWatermark
    | some session => do
      require (session.authorityId = request.authorityId) .authorityMismatch
      require (session.authorityEpoch = request.authorityEpoch)
        (.wrongEpoch session.authorityEpoch request.authorityEpoch)
      return some session.minSequence

inductive ReadTarget where
  | regionalReplica (replicaId : ReplicaId)
  | authority

structure ReplicaWait where
  replicaId : ReplicaId
  requiredSequence : Sequence
  timeout : Duration

structure ReadRouteDecision where
  target : ReadTarget
  effectiveConsistency : ReadConsistency
  downgraded : Bool
  waitBeforeFallback : Option ReplicaWait

/-- What a regional response tells a session-aware client. -/
structure ReadResponseMetadata where
  authorityId : AuthorityId
  authorityEpoch : AuthorityEpoch
  servedSequence : Sequence
  region : RegionId
  projectionVersion : Option ProjectionSchemaVersion

section
variable (observation : ReplicaObservation)

/-- The projection a request names is the one the replica has, on the same timeline. -/
def validateProjection (request : RegionalReadRequest) : Except RegionError Unit :=
  match request.requiredProjection with
  | none => .ok ()
  | some (projectionId, schemaVersion) =>
    match observation.projection with
    | none => .error .projectionUnavailable
    | some projection =>
      require (¬(projection.projectionId ≠ projectionId ∨ projection.schemaVersion ≠ schemaVersion ∨
        projection.authorityId ≠ request.authorityId ∨ projection.authorityEpoch ≠ request.authorityEpoch ∨
        projection.sequence > observation.watermark.sequence)) .projectionIncompatible

def validateReplicaBase (request : RegionalReadRequest) :
    Except RegionError Unit := do
  observation.validate
  require (observation.role = .readReplica) .notReadReplica
  require (¬(observation.maintenance ∨ observation.health = .unavailable)) .replicaUnavailable
  require (observation.mode ≠ .promotionCandidate) .replicaUnavailable
  require (observation.watermark.authorityId = request.authorityId) .authorityMismatch
  require (observation.watermark.authorityEpoch = request.authorityEpoch)
    (.wrongEpoch observation.watermark.authorityEpoch request.authorityEpoch)
  validateProjection observation request

def withinBudget : StalenessBudget → Bool
  | .none => true
  | .maxSequenceLag maximum => observation.sequenceLag ≤ maximum
  | .maxDuration maximum => observation.approximateTimeLag ≤ maximum

end

namespace ReplicaReadGuard

section
variable (observation : ReplicaObservation)

/-- The replica has applied the sequence that the read demands. -/
def validateSequence : Option Sequence → Except RegionError Unit
  | none => .ok ()
  | some required => require (¬observation.watermark.sequence < required)
      (.replicaTooStale observation.watermark.sequence required)

/-- Authorization data is recent enough for a read that depends on it. -/
def validateAuthorization (request : RegionalReadRequest)
    (required : Option Sequence) : Except RegionError Unit :=
  if request.policy.authorizationSensitive ∨ request.minimumAuthorizationSequence.isSome then
    let requiredSecurity := (request.minimumAuthorizationSequence.or required).getD
      observation.observedAuthoritySequence
    -- A replica without an authorization sequence is below every demand.
    require (observation.authorizationSequence.any fun available => decide (requiredSecurity ≤ available))
      (.authorizationTooStale observation.authorizationSequence requiredSecurity)
  else .ok ()

def validate (request : RegionalReadRequest) :
    Except RegionError ReadResponseMetadata := do
  validateReplicaBase observation request
  require (¬((observation.mode = .readOnlyStale ∨ observation.mode = .disconnected) ∧
    request.policy.consistency ≠ .eventual)) .replicaUnavailable
  let required ← request.requiredSequence
  validateSequence observation required
  validateAuthorization observation request required
  require (withinBudget observation request.policy.stalenessBudget) .stalenessBudgetExceeded
  return {
    authorityId := observation.watermark.authorityId
    authorityEpoch := observation.watermark.authorityEpoch
    servedSequence := observation.watermark.sequence
    region := observation.regionId
    projectionVersion := observation.projection.map ProjectionWatermark.schemaVersion }

end

end ReplicaReadGuard

structure RegionalRouterConfig where
  localRegion : RegionId
  replicaWait : Duration
  allowAuthorityFallback : Bool

def RegionalRouterConfig.validate (config : RegionalRouterConfig) : Except RegionError Unit :=
  require (¬config.replicaWait > 30 * 1000000000) .unboundedReplicaWait

/-- Deterministic router over the observations of the replicas, each under its own identity. -/
structure RegionalRouter where
  authority : AuthorityLocation
  authorityAvailable : Bool
  config : RegionalRouterConfig
  replicas : ExtTreeMap ReplicaId ReplicaObservation
  keyed : ∀ replicaId (observation : ReplicaObservation),
    replicas[replicaId]? = some observation → observation.replicaId = replicaId

/-- The order in which eligible replicas are preferred. -/
def preferred (regionHint : Option RegionId) (localRegion : RegionId) (first second : ReplicaObservation) : Bool :=
  (compareLex (compareOn fun replica => replica.health.rank)
    (compareLex (compareOn fun replica => decide (regionHint.or (some localRegion) ≠ some replica.regionId))
      (compareLex (compareOn fun replica => replica.priority.toNat)
        (compareLex (compareOn fun replica => replica.loadBasisPoints.toNat)
          (compareLex (compareOn ReplicaObservation.sequenceLag)
            (compareOn ReplicaObservation.replicaId))))) first second).isLE

def sortReplicas (replicas : List ReplicaObservation) (regionHint : Option RegionId) (localRegion : RegionId) :
    List ReplicaObservation :=
  replicas.insertionSort fun first second => preferred regionHint localRegion first second

namespace RegionalRouter

def new (authority : AuthorityLocation) (authorityAvailable : Bool) (config : RegionalRouterConfig) :
    Except RegionError RegionalRouter := do
  authority.validate
  config.validate
  return {
    authority
    authorityAvailable
    config
    replicas := ∅
    keyed := by simp }

section
variable (router : RegionalRouter)

/-- Adds or replaces one replica observation. -/
def observe (observation : ReplicaObservation) : Except RegionError RegionalRouter := do
  observation.validate
  return { router with
    replicas := router.replicas.insert observation.replicaId observation
    keyed := by
      intro replicaId found lookup
      rw [lookup_insert] at lookup
      split at lookup
      · cases lookup
        assumption
      · exact router.keyed replicaId found lookup }

def remove (replicaId : ReplicaId) : Option ReplicaObservation × RegionalRouter :=
  (router.replicas[replicaId]?, { router with
    replicas := router.replicas.erase replicaId
    keyed := by
      intro other found lookup
      rw [lookup_erase] at lookup
      split at lookup
      · cases lookup
      · exact router.keyed other found lookup })

/-- Follows the writer to a newer epoch and forgets the replicas of the older ones. -/
def updateAuthority (authority : AuthorityLocation) (available : Bool) :
    Except RegionError RegionalRouter := do
  authority.validate
  require (authority.authorityId = router.authority.authorityId) .authorityMismatch
  require (¬authority.authorityEpoch < router.authority.authorityEpoch)
    (.epochRollback router.authority.authorityEpoch authority.authorityEpoch)
  return { router with
    authority
    authorityAvailable := available
    replicas := router.replicas.filter fun _ replica =>
      replica.watermark.authorityId == authority.authorityId &&
        replica.watermark.authorityEpoch == authority.authorityEpoch
    keyed := by
      intro replicaId found lookup
      rw [ExtTreeMap.getElem?_filter'] at lookup
      exact router.keyed replicaId found (Option.filter_eq_some_iff.mp lookup).1 }

def authorityDecision (effectiveConsistency : ReadConsistency) (downgraded : Bool)
    (waitBeforeFallback : Option ReplicaWait) : Except RegionError ReadRouteDecision := do
  require router.authorityAvailable .authorityUnavailable
  return {
    target := .authority
    effectiveConsistency
    downgraded
    waitBeforeFallback }

/-- The best of the observed replicas that are eligible. -/
def best (request : RegionalReadRequest) (eligible : ReplicaObservation → Bool) :
    Option ReplicaObservation :=
  (sortReplicas (router.replicas.values.filter eligible) request.regionHint router.config.localRegion).head?

def staleWaitCandidate (request : RegionalReadRequest) : Option ReplicaId :=
  (router.best request fun replica => (validateReplicaBase replica request).isOk).map ReplicaObservation.replicaId

end

/-- A replica that may serve a read of a weaker guarantee. -/
def mayDowngrade (request : RegionalReadRequest) (replica : ReplicaObservation) : Bool :=
  (validateReplicaBase replica request).isOk &&
    (request.policy.fallback == .allowEventual ||
      (request.policy.fallback == .allowBoundedStale && request.policy.stalenessBudget != .none &&
        withinBudget replica request.policy.stalenessBudget))

section
variable (router : RegionalRouter) (request : RegionalReadRequest)

/-- What is answered when nothing can serve the read. -/
def refusal : Option Sequence → RegionError
  | some required =>
    let available := ((router.replicas.values.filter fun replica =>
      replica.watermark.authorityId == request.authorityId &&
        replica.watermark.authorityEpoch == request.authorityEpoch).map
          fun replica => replica.watermark.sequence).max?.getD 0
    .replicaTooStale available required
  | none => if router.authorityAvailable then .noEligibleReplica else .authorityUnavailable

def downgrade (required : Option Sequence) :
    Except RegionError ReadRouteDecision :=
  match if request.policy.fallback ≠ .neverDowngrade then router.best request (mayDowngrade request) else none with
  | some replica => .ok {
      target := .regionalReplica replica.replicaId
      effectiveConsistency := .eventual
      downgraded := true
      waitBeforeFallback := none }
  | none => .error (router.refusal request required)

def route : Except RegionError ReadRouteDecision := do
  require (request.authorityId = router.authority.authorityId) .authorityMismatch
  require (request.authorityEpoch = router.authority.authorityEpoch)
    (.wrongEpoch router.authority.authorityEpoch request.authorityEpoch)
  let required ← request.requiredSequence
  if request.policy.consistency = .authority then
    router.authorityDecision .authority false none
  else
    match router.best request fun replica => (ReplicaReadGuard.validate replica request).isOk with
    | some replica => return {
        target := .regionalReplica replica.replicaId
        effectiveConsistency := request.policy.consistency
        downgraded := false
        waitBeforeFallback := none }
    | none =>
      if request.policy.allowAuthorityFallback ∧ router.config.allowAuthorityFallback ∧
          router.authorityAvailable then
        router.authorityDecision request.policy.consistency false (required.bind fun requiredSequence =>
          (router.staleWaitCandidate request).map fun replicaId =>
            { replicaId
              requiredSequence
              timeout := router.config.replicaWait })
      else router.downgrade request required

end

end RegionalRouter

end Aequora.Region
