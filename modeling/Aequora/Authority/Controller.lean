import Aequora.Base.Check
import Aequora.Store.Authoritative

/-! The authority controller: who may commit, under which epoch and fence, and the calls
that move an instance between roles, runtime modes and epochs. -/

namespace Aequora.Authority

open Aequora.Base Aequora.Protocol Aequora.Store

inductive AuthorityRole where
  | primary | standby | readReplica | recovering | demoted
deriving DecidableEq

inductive AuthorityRuntimeMode where
  | serving | recovering | readOnlyVerification | promotionPending | quarantined
deriving DecidableEq

inductive PromotionClass where
  | losslessContinuation | potentialDataLoss | restoredTimeline | newAuthorityMigration
deriving DecidableEq

inductive TransitionReason where
  | plannedMigration | regionFailover | pointInTimeRestore | corruptionRecovery | standbyPromotion
  | forkResolution | operatorDemotion

structure AuthorityState where
  authorityId : AuthorityId
  epoch : AuthorityEpoch
  role : AuthorityRole
  instanceId : AuthorityInstanceId
  fenceToken : Nat
  runtimeMode : AuthorityRuntimeMode
  lastPromotionClass : PromotionClass
  transitionId : AuthorityTransitionId
  updatedAtUnixMs : Nat

/-- A first-epoch authority state. A primary starts read-only until verification. -/
def AuthorityState.new (authorityId : AuthorityId) (instanceId : AuthorityInstanceId)
    (role : AuthorityRole) (transitionId : AuthorityTransitionId) (updatedAtUnixMs : Nat) :
    AuthorityState where
  authorityId
  epoch := 1
  role
  instanceId
  fenceToken := 1
  runtimeMode := if role = .primary then .readOnlyVerification else .recovering
  lastPromotionClass := .losslessContinuation
  transitionId
  updatedAtUnixMs

def AuthorityState.cursor (state : AuthorityState) (scope : SyncScopeId) (sequence : Sequence) : Cursor :=
  { scope, sequence, authorityId := state.authorityId, authorityEpoch := state.epoch }

inductive AuthorityError where
  | zeroFenceToken
  | fenceTokenExhausted
  | epochExhausted
  | notPrimary (role : AuthorityRole)
  | writesBlocked (mode : AuthorityRuntimeMode)
  | staleFence
  | externalFenceRequired
  | losslessContinuityUnproven
  | dataLossApprovalRequired
  | manualApprovalRequired
  | recoveryVerificationIncomplete
  | authorityRollbackDetected (presented highest : AuthorityEpoch)
  | authorityIdChanged (trusted presented : AuthorityId)
  | externalEpochRegression (external «local» : AuthorityEpoch)
  | artifactEpochMismatch (artifact current : AuthorityEpoch)
  | noEpochTransition
deriving DecidableEq

structure AuthorityPromotionPolicy where
  (requireManualForDataLoss requireExternalFence : Bool)

def AuthorityPromotionPolicy.default : AuthorityPromotionPolicy where
  requireManualForDataLoss := true
  requireExternalFence := true

/-- Checkpoints and operator evidence used to classify a proposed promotion. -/
structure PromotionEvidence where
  oldPrimaryExternallyFenced : Bool
  replicationLag : Option Nat
  (journalContinuity operationLedgerContinuity auditContinuity authorityMetadataContinuity : Bool)
  (scopeMetadataContinuity snapshotCatalogConsistent : Bool)

/-- Exact continuity needed to retain the current epoch. -/
def PromotionEvidence.provesLossless (evidence : PromotionEvidence) : Bool :=
  evidence.replicationLag == some 0 && evidence.journalContinuity && evidence.operationLedgerContinuity &&
    evidence.auditContinuity && evidence.authorityMetadataContinuity &&
    evidence.scopeMetadataContinuity && evidence.snapshotCatalogConsistent

structure PromotionRequest where
  promotionClass : PromotionClass
  reason : TransitionReason
  evidence : PromotionEvidence
  (allowDataLoss manuallyApproved : Bool)
  newInstanceId : AuthorityInstanceId
  createdAtUnixMs : Nat

/-- The promotion may lose acknowledged commits. -/
def PromotionRequest.risky (request : PromotionRequest) : Bool :=
  request.promotionClass == .potentialDataLoss || request.promotionClass == .restoredTimeline ||
    (request.promotionClass == .newAuthorityMigration && !request.evidence.provesLossless)

def PromotionRequest.retainsEpoch (request : PromotionRequest) : Bool :=
  request.promotionClass == .losslessContinuation ||
    (request.promotionClass == .newAuthorityMigration && request.evidence.provesLossless)

/-- Immutable evidence linking two authority timelines. -/
structure AuthorityTransitionManifest where
  transitionId : AuthorityTransitionId
  authorityId : AuthorityId
  (oldEpoch newEpoch : AuthorityEpoch)
  promotionClass : PromotionClass
  oldFinalSequence : Option Sequence
  newBaseSequence : Sequence
  reason : TransitionReason
  (createdAtUnixMs fenceToken : Nat)

structure PromotionOutcome where
  state : AuthorityState
  transition : AuthorityTransitionManifest

/-- All checks required before recovery mode can enable writes. -/
structure RecoveryVerification where
  (authorityMetadataValid journalConsistent operationLedgerConsistent auditChainValid : Bool)
  (governanceReconciled scopeMetadataValid snapshotStrategyReady sideEffectStatusKnown : Bool)
  externalEpochValid : Bool

def RecoveryVerification.isComplete (verification : RecoveryVerification) : Bool :=
  verification.authorityMetadataValid && verification.journalConsistent &&
    verification.operationLedgerConsistent && verification.auditChainValid &&
    verification.governanceReconciled && verification.scopeMetadataValid &&
    verification.snapshotStrategyReady && verification.sideEffectStatusKnown &&
    verification.externalEpochValid

structure JournalCheckpoint where
  authorityId : AuthorityId
  epoch : AuthorityEpoch
  sequence : Sequence
  journalRoot : Vector UInt8 32

inductive CheckpointComparison where
  | match | differentPosition | differentTimeline | forkDetected
deriving DecidableEq

def compareCheckpoints (own peer : JournalCheckpoint) : CheckpointComparison :=
  if own.authorityId ≠ peer.authorityId ∨ own.epoch ≠ peer.epoch then .differentTimeline
  else if own.sequence ≠ peer.sequence then .differentPosition
  else if own.journalRoot ≠ peer.journalRoot then .forkDetected
  else .match

structure AuthorityController where
  state : AuthorityState
  policy : AuthorityPromotionPolicy
  externalHighestEpoch : Option AuthorityEpoch

namespace AuthorityController

def new (state : AuthorityState) (policy : AuthorityPromotionPolicy) : AuthorityController where
  state
  policy
  externalHighestEpoch := none

variable (controller : AuthorityController)

/-- Install the control-plane rollback anchor checked before any write. -/
def setExternalHighestEpoch (epoch : AuthorityEpoch) : AuthorityController × Except AuthorityError Unit :=
  if epoch < controller.state.epoch then
    (controller, .error (.externalEpochRegression epoch controller.state.epoch))
  else
    match controller.externalHighestEpoch with
    | some current =>
      if epoch < current then (controller, .error (.externalEpochRegression epoch current))
      else ({ controller with externalHighestEpoch := some epoch }, .ok ())
    | none => ({ controller with externalHighestEpoch := some epoch }, .ok ())

def ensureExternalEpoch : Except AuthorityError Unit :=
  match controller.externalHighestEpoch with
  | some highest =>
    if controller.state.epoch < highest then
      .error (.authorityRollbackDetected controller.state.epoch highest)
    else .ok ()
  | none => .ok ()

def validateStartup : Except AuthorityError Unit := do
  controller.ensureExternalEpoch
  if controller.state.role = .primary ∧ controller.state.fenceToken = 0 then throw .zeroFenceToken

def authorizeWrite : Except AuthorityError AuthorityCommitContext := do
  controller.ensureExternalEpoch
  if controller.state.role ≠ .primary then throw (.notPrimary controller.state.role)
  if controller.state.runtimeMode ≠ .serving then throw (.writesBlocked controller.state.runtimeMode)
  return {
    authorityId := controller.state.authorityId
    epoch := controller.state.epoch
    instanceId := controller.state.instanceId
    fenceToken := controller.state.fenceToken }

def verifyCommitContext (context : AuthorityCommitContext) : Except AuthorityError Unit := do
  let current ← controller.authorizeWrite
  if current = context then return () else throw .staleFence

section
variable (request : PromotionRequest)

/-- What a promotion is refused for before the state is looked at. -/
def checkPromotion : Except AuthorityError Unit := do
  require (¬(controller.policy.requireExternalFence ∧ ¬request.evidence.oldPrimaryExternallyFenced))
    .externalFenceRequired
  require (¬(request.promotionClass = .losslessContinuation ∧ ¬request.evidence.provesLossless))
    .losslessContinuityUnproven
  require (¬(request.risky ∧ ¬request.allowDataLoss)) .dataLossApprovalRequired
  require (¬(request.risky ∧ controller.policy.requireManualForDataLoss ∧ ¬request.manuallyApproved))
    .manualApprovalRequired

/-- The epoch after a promotion. -/
def promotedEpoch : Except AuthorityError AuthorityEpoch :=
  if request.retainsEpoch then .ok controller.state.epoch
  else
    match checkedAdd controller.state.epoch 1 with
    | some next => .ok next
    | none => .error .epochExhausted

def nextFence : Except AuthorityError Nat :=
  match checkedAdd controller.state.fenceToken 1 with
  | some next => .ok next
  | none => .error .fenceTokenExhausted

/-- A fail-closed promotion after evaluating evidence and explicit approvals. -/
def promote (transitionId : AuthorityTransitionId)
    (oldFinalSequence : Option Sequence) (newBaseSequence : Sequence) :
    Except AuthorityError (AuthorityController × PromotionOutcome) := do
  controller.checkPromotion request
  let newEpoch ← controller.promotedEpoch request
  let newFence ← controller.nextFence
  let state : AuthorityState :=
    { authorityId := controller.state.authorityId
      epoch := newEpoch
      role := .primary
      instanceId := request.newInstanceId
      fenceToken := newFence
      runtimeMode := .readOnlyVerification
      lastPromotionClass := request.promotionClass
      transitionId
      updatedAtUnixMs := request.createdAtUnixMs }
  let transition : AuthorityTransitionManifest :=
    { transitionId
      authorityId := controller.state.authorityId
      oldEpoch := controller.state.epoch
      newEpoch
      promotionClass := request.promotionClass
      oldFinalSequence
      newBaseSequence
      reason := request.reason
      createdAtUnixMs := request.createdAtUnixMs
      fenceToken := newFence }
  return ({ controller with state }, { state, transition })

end

/-- Demote and fence the instance. Role and mode are set before the fence can be found exhausted. -/
def demote (transitionId : AuthorityTransitionId) (updatedAtUnixMs : Nat) :
    AuthorityController × Except AuthorityError AuthorityState :=
  let blocked : AuthorityState :=
    { controller.state with role := .demoted, runtimeMode := .recovering }
  match controller.nextFence with
  | .error error => ({ controller with state := blocked }, .error error)
  | .ok fence =>
    let demoted : AuthorityState :=
      { blocked with fenceToken := fence, transitionId, updatedAtUnixMs }
    ({ controller with state := demoted }, .ok demoted)

def beginRecovery (updatedAtUnixMs : Nat) : AuthorityController :=
  { controller with
    state := { controller.state with runtimeMode := .recovering, updatedAtUnixMs } }

/-- Enable serving only after every recovery verification succeeds. -/
def completeRecovery (verification : RecoveryVerification) (updatedAtUnixMs : Nat) :
    Except AuthorityError AuthorityController := do
  if !verification.isComplete then throw .recoveryVerificationIncomplete
  controller.ensureExternalEpoch
  if controller.state.role ≠ .primary then throw (.notPrimary controller.state.role)
  return { controller with
    state := { controller.state with runtimeMode := .serving, updatedAtUnixMs } }

/-- Quarantine the authority when a peer checkpoint proves a fork. -/
def observeCheckpoint (own peer : JournalCheckpoint) (updatedAtUnixMs : Nat) :
    AuthorityController × CheckpointComparison :=
  let comparison := compareCheckpoints own peer
  if comparison = .forkDetected then
    ({ controller with
      state := { controller.state with runtimeMode := .quarantined, updatedAtUnixMs } },
      comparison)
  else (controller, comparison)

end AuthorityController

inductive CursorDisposition where
  | continue
  | authorityChanged (previous current : AuthorityEpoch)

/-- Authority identity, rollback and epoch continuity of a presented cursor. -/
def validateCursor (state : AuthorityState) (cursor : Cursor) : Except AuthorityError CursorDisposition :=
  if cursor.authorityId = AuthorityId.legacyUnbound then
    .ok (.authorityChanged cursor.authorityEpoch state.epoch)
  else if cursor.authorityId ≠ state.authorityId then
    .error (.authorityIdChanged cursor.authorityId state.authorityId)
  else if cursor.authorityEpoch > state.epoch then
    .error (.authorityRollbackDetected state.epoch cursor.authorityEpoch)
  else if cursor.authorityEpoch < state.epoch then
    .ok (.authorityChanged cursor.authorityEpoch state.epoch)
  else .ok .continue

end Aequora.Authority
