import Aequora.Base.Check
import Aequora.Protocol.Types
import Mathlib.Data.Finset.Card

/-! Change feeds: the registration of a consumer, the batch built for it, and the acknowledgement
that moves its cursor. Sizes are `usize` on a 64-bit target. -/

namespace Aequora.Feed

open Std Aequora.Base Aequora.Protocol

inductive FeedIdKind where
  | consumer | consumerWorker

structure FeedId (kind : FeedIdKind) where
  uuid : BitVec 128
deriving DecidableEq

abbrev ConsumerId := FeedId .consumer
abbrev ConsumerWorkerId := FeedId .consumerWorker

structure NonzeroU32 where
  value : UInt32
  nonzero : value ≠ 0
deriving DecidableEq

abbrev EventKind := NonzeroU32
abbrev EventSchemaVersion := NonzeroU32

structure ConsumerFencingToken where
  value : UInt64
  nonzero : value ≠ 0
deriving DecidableEq

structure Timestamp where
  unixSeconds : Int
  nanoseconds : UInt32
deriving DecidableEq

structure ChangeFeedEvent where
  eventId : EventId
  authorityEpoch : AuthorityEpoch
  sequence : Sequence
  tenantId : TenantId
  entity : EntityRef
  entityVersion : EntityVersion
  eventKind : EventKind
  schemaVersion : EventSchemaVersion
  payload : List UInt8
  payloadDigest : Vector UInt8 32
  operationId : OperationId
  operationKind : Option UInt32
  correlationId : CorrelationId
  occurredAt : Timestamp
deriving DecidableEq

structure ConsumerCursor where
  consumerId : ConsumerId
  authorityId : AuthorityId
  authorityEpoch : AuthorityEpoch
  sequence : Sequence

inductive ConsumerOrderingPolicy where
  | global | perTenant | perEntity | unordered
deriving DecidableEq

inductive ConsumerRetentionPolicy where
  | pinJournal | rebuildIfBehind | bestEffort
deriving DecidableEq

inductive ConsumerFailurePolicy where
  | stop | retry | quarantine | skipWithAudit
deriving DecidableEq

inductive Rebuildability where
  | canRebuild | cannotRebuild
deriving DecidableEq

inductive ConsumerBootstrapMode where
  | fromBeginning | snapshotAndTail | currentOnly
deriving DecidableEq

inductive FeedVisibility where
  | internalOnly | tenantIntegration | publicIntegration
deriving DecidableEq

inductive FeedError where
  | invalidRegistration (field : String)
  | tenantDenied
  | visibilityDenied
  | limitExceeded (limit : String)
  | cursorConsumerMismatch
  | wrongEpochOrOrder
  | arithmeticOverflow
  | checkpointConflict
  | effectNotDurable
  | staleWorker
  | orderingViolation
  | unsafeSkip
  | archiveVerificationFailed
deriving DecidableEq

def maxConsumerNameBytes : Nat := 128
def maxFilterValues : Nat := 4096

inductive TenantSelector where
  | explicit (tenants : Finset TenantId)
  | allAuthorized

structure ConsumerAuthorization where
  serviceIdentity : String
  tenants : Finset TenantId
  allowedVisibility : Finset FeedVisibility

def ConsumerAuthorization.validate (authorization : ConsumerAuthorization) : Except FeedError Unit :=
  require (¬(authorization.serviceIdentity.utf8ByteSize = 0 ∨
    authorization.serviceIdentity.utf8ByteSize > maxConsumerNameBytes ∨
    authorization.tenants = ∅ ∨ authorization.allowedVisibility = ∅)) (.invalidRegistration "authorization")

structure ConsumerFilter where
  tenants : TenantSelector
  entityTypes : Finset UInt16
  eventKinds : Finset EventKind
  operationKinds : Finset UInt32

namespace ConsumerFilter

/-- Explicitly selected tenants are few enough and all authorized. -/
def validateTenants (authorization : ConsumerAuthorization) : TenantSelector → Except FeedError Unit
  | .explicit tenants =>
    require (¬(tenants.card > maxFilterValues ∨ ¬tenants ⊆ authorization.tenants)) .tenantDenied
  | .allAuthorized => .ok ()

def validate (filter : ConsumerFilter) (authorization : ConsumerAuthorization) : Except FeedError Unit := do
  require (¬(filter.entityTypes.card > maxFilterValues ∨ filter.eventKinds.card > maxFilterValues ∨
    filter.operationKinds.card > maxFilterValues)) (.limitExceeded "filter values")
  validateTenants authorization filter.tenants

def «matches» (filter : ConsumerFilter) (event : ChangeFeedEvent) (authorization : ConsumerAuthorization) : Bool :=
  decide (event.tenantId ∈ authorization.tenants) &&
    (match filter.tenants with
      | .allAuthorized => true
      | .explicit tenants => decide (event.tenantId ∈ tenants)) &&
    (decide (filter.entityTypes = ∅) || decide (event.entity.entityType ∈ filter.entityTypes)) &&
    (decide (filter.eventKinds = ∅) || decide (event.eventKind ∈ filter.eventKinds)) &&
    (decide (filter.operationKinds = ∅) ||
      event.operationKind.any fun kind => decide (kind ∈ filter.operationKinds))

end ConsumerFilter

structure BatchLimits where
  (maxEvents maxBytes maxProcessingMs maxConcurrency : Nat)

def BatchLimits.validate (limits : BatchLimits) : Except FeedError Unit :=
  require (¬(limits.maxEvents = 0 ∨ limits.maxBytes = 0 ∨ limits.maxProcessingMs = 0 ∨ limits.maxConcurrency = 0))
    (.invalidRegistration "batch limits")

structure ConsumerRegistration where
  consumerId : ConsumerId
  name : String
  filter : ConsumerFilter
  ordering : ConsumerOrderingPolicy
  retention : ConsumerRetentionPolicy
  failure : ConsumerFailurePolicy
  rebuildability : Rebuildability
  bootstrap : ConsumerBootstrapMode
  visibility : FeedVisibility
  authorization : ConsumerAuthorization
  batch : BatchLimits
  maxRetentionPinAgeMs : Option Nat

namespace ConsumerRegistration

def validate (registration : ConsumerRegistration) : Except FeedError Unit := do
  require (¬(registration.name.utf8ByteSize = 0 ∨ registration.name.utf8ByteSize > maxConsumerNameBytes))
    (.invalidRegistration "name")
  registration.authorization.validate
  registration.filter.validate registration.authorization
  registration.batch.validate
  require (registration.visibility ∈ registration.authorization.allowedVisibility) .visibilityDenied
  require (¬(registration.retention = .pinJournal ∧
    (registration.rebuildability ≠ .cannotRebuild ∨ registration.maxRetentionPinAgeMs = none)))
    (.invalidRegistration "retention pin review")
  require (¬(registration.bootstrap = .currentOnly ∧ registration.retention ≠ .bestEffort))
    (.invalidRegistration "current-only delivery")
  require (¬(registration.ordering = .global ∧ registration.batch.maxConcurrency ≠ 1)) .orderingViolation
  require (¬(registration.failure = .skipWithAudit ∧ registration.retention ≠ .bestEffort)) .unsafeSkip

def wants (registration : ConsumerRegistration) (event : ChangeFeedEvent) : Bool :=
  registration.filter.matches event registration.authorization

end ConsumerRegistration

structure FeedBatch where
  consumerId : ConsumerId
  authorityId : AuthorityId
  authorityEpoch : AuthorityEpoch
  after : Sequence
  events : List ChangeFeedEvent
  (totalBytes scannedBytes : Nat)
  scannedThrough : Sequence

namespace FeedBatch

/-- The variables of the loop that builds a batch. -/
structure Scan where
  accepted : List ChangeFeedEvent
  (totalBytes scannedBytes scannedEvents : Nat)
  previous : Sequence

def checkedSum (left right : Nat) : Except FeedError Nat :=
  match checkedAdd left right with
  | some total => .ok total
  | none => .error .arithmeticOverflow

/-- Takes an event into the batch if the consumer wants it. -/
def Scan.accept (registration : ConsumerRegistration) (scan : Scan) (event : ChangeFeedEvent) :
    Except FeedError Scan :=
  if registration.wants event then do
    let totalBytes ← checkedSum scan.totalBytes event.payload.length
    require (¬(scan.accepted.length ≥ registration.batch.maxEvents ∨ totalBytes > registration.batch.maxBytes))
      (.limitExceeded "batch")
    return { scan with accepted := scan.accepted ++ [event], totalBytes }
  else return scan

/-- One round of the loop. -/
def Scan.next (registration : ConsumerRegistration) (authorityEpoch : AuthorityEpoch) (scan : Scan)
    (event : ChangeFeedEvent) : Except FeedError Scan := do
  let scannedEvents ← checkedSum scan.scannedEvents 1
  let scannedBytes ← checkedSum scan.scannedBytes event.payload.length
  require (¬(scannedEvents > registration.batch.maxEvents ∨ scannedBytes > registration.batch.maxBytes))
    (.limitExceeded "journal scan batch")
  require (¬(event.authorityEpoch ≠ authorityEpoch ∨ event.sequence ≤ scan.previous)) .wrongEpochOrOrder
  { scan with
    scannedEvents
    scannedBytes
    previous := event.sequence }.accept registration event

def build (cursor : ConsumerCursor) (events : List ChangeFeedEvent) (registration : ConsumerRegistration) :
    Except FeedError FeedBatch := do
  registration.validate
  require (cursor.consumerId = registration.consumerId) .cursorConsumerMismatch
  let scan ← events.foldlM (Scan.next registration cursor.authorityEpoch)
    { accepted := [], totalBytes := 0, scannedBytes := 0, scannedEvents := 0, previous := cursor.sequence }
  return {
    consumerId := cursor.consumerId
    authorityId := cursor.authorityId
    authorityEpoch := cursor.authorityEpoch
    after := cursor.sequence
    events := scan.accepted
    totalBytes := scan.totalBytes
    scannedBytes := scan.scannedBytes
    scannedThrough := scan.previous }

def through (batch : FeedBatch) : Sequence := batch.scannedThrough

end FeedBatch

inductive ConsumerResult where
  | applied | ignored | retryable | quarantine
deriving DecidableEq

structure DurableEventReceipt where
  eventId : EventId
  sequence : Sequence
  result : ConsumerResult
  effectDurable : Bool

structure ConsumerLease where
  consumerId : ConsumerId
  workerId : ConsumerWorkerId
  fencingToken : ConsumerFencingToken
  expiresAtUnixMs : Nat

namespace ConsumerLease

def validate (lease : ConsumerLease) (consumer : ConsumerId) (token : ConsumerFencingToken) : Except FeedError Unit :=
  require (¬(lease.consumerId ≠ consumer ∨ lease.fencingToken ≠ token)) .staleWorker

def isActive (lease : ConsumerLease) (nowUnixMs : Nat) : Bool := nowUnixMs < lease.expiresAtUnixMs

end ConsumerLease

structure AckRequest where
  expected : ConsumerCursor
  ackThrough : Sequence
  receipts : List DurableEventReceipt
  projectionAppliedThrough : Sequence
  fencingToken : ConsumerFencingToken

/-- A receipt that does not settle the event at its place. -/
def DurableEventReceipt.misses (receipt : DurableEventReceipt) (event : ChangeFeedEvent) : Bool :=
  decide (receipt.eventId ≠ event.eventId) || decide (receipt.sequence ≠ event.sequence) ||
    !receipt.effectDurable || !(receipt.result == .applied || receipt.result == .ignored)

def AckRequest.validate (request : AckRequest) (batch : FeedBatch) (lease : ConsumerLease) (nowUnixMs : Nat) :
    Except FeedError ConsumerCursor := do
  require (¬(request.expected.consumerId ≠ batch.consumerId ∨ request.expected.authorityId ≠ batch.authorityId ∨
    request.expected.authorityEpoch ≠ batch.authorityEpoch ∨ request.expected.sequence ≠ batch.after))
    .checkpointConflict
  lease.validate request.expected.consumerId request.fencingToken
  require (lease.isActive nowUnixMs) .staleWorker
  require (¬(request.ackThrough ≠ batch.through ∨ request.projectionAppliedThrough < request.ackThrough ∨
    request.receipts.length ≠ batch.events.length ∨
    (request.receipts.zip batch.events).any fun (receipt, event) => receipt.misses event)) .effectNotDurable
  return { request.expected with sequence := request.ackThrough }

end Aequora.Feed
