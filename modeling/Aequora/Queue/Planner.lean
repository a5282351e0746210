import Aequora.Base.Check
import Aequora.Base.SourceRemoval
import Aequora.Protocol.Types
import Mathlib.Data.List.Sort

/-! Planning of offline outbox compaction and rebase. A compaction pass walks the entries once and
then checks that the active ones can still be ordered by their dependencies. -/

namespace Aequora.Queue

open Std Aequora.Base Aequora.Protocol ExtTreeMap

abbrev LocalOperationSeq := Nat

inductive CompactionPolicy where
  | never | replaceLatest | merge | cancelPairs | custom
deriving DecidableEq

inductive RebasePolicy where
  | never | reapplyIntent | fieldAware | custom

inductive OperationRisk where
  | ordinary | appendOnly | financialAuditSensitive
deriving DecidableEq

inductive OperationShape where
  | create | update | delete | append | other
deriving DecidableEq

inductive MutationMutability where
  | mutableUnsent | immutablePossiblyDelivered | finalized
deriving DecidableEq

abbrev FieldGroupId := UInt16
abbrev OperationClassId := UInt16

inductive OperationAccess where
  | aggregateWide
  | fields (reads writes : Finset FieldGroupId)

inductive PairAction where
  | add | remove

structure CancellationDescriptor where
  token : List UInt8
  action : PairAction

/-- How operations of one kind may be optimized. -/
structure OperationOptimization where
  compaction : CompactionPolicy
  rebase : RebasePolicy
  operationClass : OperationClassId
  fieldGroup : Option FieldGroupId
  barrier : Bool
  risk : OperationRisk
  shape : OperationShape
  (certifiedSensitiveCompaction allowCrossCorrelation : Bool)
  policyVersion : UInt32
  access : OperationAccess

def OperationOptimization.default : OperationOptimization where
  compaction := .never
  rebase := .never
  operationClass := 0
  fieldGroup := none
  barrier := false
  risk := .ordinary
  shape := .other
  certifiedSensitiveCompaction := false
  allowCrossCorrelation := false
  policyVersion := 1
  access := .aggregateWide

structure OptimizationRegistry where
  descriptors : ExtTreeMap UInt16 OperationOptimization

namespace OptimizationRegistry

def default : OptimizationRegistry := ⟨∅⟩

section
variable (registry : OptimizationRegistry) (kind : UInt16)

def register (descriptor : OperationOptimization) :
    OptimizationRegistry :=
  ⟨registry.descriptors.insert kind descriptor⟩

def descriptor : OperationOptimization :=
  (registry.descriptors[kind]?).getD .default

end

end OptimizationRegistry

structure QueueEntry where
  localSequence : LocalOperationSeq
  operation : OperationEnvelope
  mutability : MutationMutability
  immutableHash : Option (Vector UInt8 32)
  cancellation : Option CancellationDescriptor

def QueueEntry.id (entry : QueueEntry) : OperationId := entry.operation.operationId

def QueueEntry.dependencies (entry : QueueEntry) : List OperationId := entry.operation.metadata.dependencies

inductive SupersessionReason where
  | replacedByLatest | canceledPair
deriving DecidableEq

structure Supersession where
  oldOperationId : OperationId
  newOperationId : Option OperationId
  reason : SupersessionReason
deriving DecidableEq

structure CompactionPlan where
  (operationsBefore operationsAfter : Nat)
  removeOperations : List OperationId
  supersessions : List Supersession
  (bytesSaved barriers sensitivePreserved : Nat)
deriving DecidableEq

inductive QueueError where
  | operationLimitExceeded (limit : Nat)
  | duplicateOperation (operation : OperationId)
  | duplicateLocalSequence (sequence : LocalOperationSeq)
  | immutablePayloadChanged (operation : OperationId)
  | requiredOperationRemoved (operation : OperationId)
  | dependencyCycle
  | encoding
deriving DecidableEq

/-- The hyphenated form of a UUID. -/
def uuidText (uuid : BitVec 128) : String :=
  let digits := (List.range 32).map fun place => Nat.digitChar (uuid.toNat >>> (4 * (31 - place)) % 16)
  "-".intercalate ([(0, 8), (8, 4), (12, 4), (16, 4), (20, 12)].map fun (first, count) =>
    String.ofList ((digits.drop first).take count))

def QueueError.text : QueueError → String
  | .operationLimitExceeded limit =>
    "queue compaction exceeds the configured " ++ toString limit ++ "-operation bound"
  | .duplicateOperation operation => "duplicate queue operation " ++ uuidText operation.uuid
  | .duplicateLocalSequence sequence =>
    "duplicate local operation sequence LocalOperationSeq(" ++ toString sequence ++ ")"
  | .immutablePayloadChanged operation =>
    "possibly delivered operation " ++ uuidText operation.uuid ++ " changed semantic payload"
  | .requiredOperationRemoved operation =>
    "compaction would remove dependency-required operation " ++ uuidText operation.uuid
  | .dependencyCycle => "active outbox dependencies contain a cycle"
  | .encoding => "operation envelope encoding failed"

structure EnvelopeCodec where
  toStdvec : OperationEnvelope → Option (List UInt8)
  blake3 : List UInt8 → Vector UInt8 32

section Planner
variable (codec : EnvelopeCodec)

section
variable (operation : OperationEnvelope)

def encoded : Except QueueError (List UInt8) :=
  match codec.toStdvec operation with
  | some bytes => .ok bytes
  | none => .error .encoding

def serializedSize : Except QueueError Nat :=
  (encoded codec operation).map fun bytes => min bytes.length u64Max

def semanticEnvelopeHash : Except QueueError (Vector UInt8 32) :=
  (encoded codec operation).map codec.blake3

end

/-- An entry that may have been delivered still has the hash it was sent with. -/
def validateImmutable (entry : QueueEntry) : Except QueueError Unit :=
  if entry.mutability = .immutablePossiblyDelivered then do
    let hash ← semanticEnvelopeHash codec entry.operation
    require (entry.immutableHash = some hash) (.immutablePayloadChanged entry.id)
  else .ok ()

def validateFrom (ids : Finset OperationId) (sequences : Finset LocalOperationSeq) :
    List QueueEntry → Except QueueError Unit
  | [] => .ok ()
  | entry :: rest => do
    require (entry.id ∉ ids) (.duplicateOperation entry.id)
    require (entry.localSequence ∉ sequences) (.duplicateLocalSequence entry.localSequence)
    validateImmutable codec entry
    validateFrom (insert entry.id ids) (insert entry.localSequence sequences) rest

def validateEntries (entries : List QueueEntry) : Except QueueError Unit := validateFrom codec ∅ ∅ entries

structure CompactionKey where
  entity : EntityRef
  operationClass : OperationClassId
  fieldGroup : Option FieldGroupId
  policyVersion : UInt32
deriving DecidableEq

def CompactionKey.new (entity : EntityRef) (descriptor : OperationOptimization) : CompactionKey where
  entity
  operationClass := descriptor.operationClass
  fieldGroup := descriptor.fieldGroup
  policyVersion := descriptor.policyVersion

def dependentIds (entries : List QueueEntry) : Finset OperationId :=
  (entries.flatMap QueueEntry.dependencies).toFinset

section
variable (prior next : QueueEntry)

section
variable (descriptor : OperationOptimization) (dependents : Finset OperationId)

def compatibleReplace : Bool :=
  prior.mutability = .mutableUnsent && prior.operation.schemaVersion = next.operation.schemaVersion &&
    (descriptor.allowCrossCorrelation ||
      prior.operation.metadata.lineage.correlationId = next.operation.metadata.lineage.correlationId) &&
    prior.id ∉ dependents

def actionsAreOpposite : Bool :=
  match prior.cancellation.map CancellationDescriptor.action, next.cancellation.map CancellationDescriptor.action with
  | some .add, some .remove | some .remove, some .add => true
  | _, _ => false

def oppositePair : Bool :=
  actionsAreOpposite prior next && compatibleReplace prior next descriptor dependents && next.id ∉ dependents

end

end

structure Pass where
  active : ExtTreeMap OperationId Bool
  latest : CompactionKey → Option Nat
  pairLatest : CompactionKey × List UInt8 → Option Nat
  plan : CompactionPlan

def Pass.start (entries : List QueueEntry) : Pass where
  active := ofList (entries.map fun entry => (entry.id, true))
  latest := fun _ => none
  pairLatest := fun _ => none
  plan :=
    { operationsBefore := entries.length
      operationsAfter := 0
      removeOperations := []
      supersessions := []
      bytesSaved := 0
      barriers := 0
      sensitivePreserved := 0 }

def supersede (entry : QueueEntry) (replacement : Option OperationId) (pass : Pass) : Except QueueError Pass := do
  let size ← serializedSize codec entry.operation
  return { pass with
    active := pass.active.insert entry.id false
    plan := { pass.plan with
      removeOperations := pass.plan.removeOperations ++ [entry.id]
      bytesSaved := saturatingAdd pass.plan.bytesSaved size
      supersessions := pass.plan.supersessions ++
        [{ oldOperationId := entry.id
           newOperationId := replacement
           reason := replacement.elim .canceledPair fun _ => .replacedByLatest }] } }

variable (entries : List QueueEntry)

section
variable (descriptor : OperationOptimization)

def supersedePrior (pass : Pass) (entry : QueueEntry) :
    Option QueueEntry → Except QueueError Pass
  | none => .ok pass
  | some prior =>
    if compatibleReplace prior entry descriptor (dependentIds entries) then
      supersede codec prior (some entry.id) pass
    else .ok pass

def replaceLatest (key : CompactionKey) (pass : Pass) (entry : QueueEntry)
    (index : Nat) : Except QueueError Pass := do
  let superseded ← supersedePrior codec entries descriptor pass entry
    ((pass.latest key).bind fun prior => entries[prior]?)
  return { superseded with latest := Function.update superseded.latest key (some index) }

def cancelPair (key : CompactionKey) (token : List UInt8) (pass : Pass)
    (entry : QueueEntry) (index : Nat) : Except QueueError Pass :=
  let kept : Pass := { pass with pairLatest := Function.update pass.pairLatest (key, token) (some index) }
  match (pass.pairLatest (key, token)).bind fun prior => entries[prior]? with
  | none => .ok kept
  | some prior =>
    if oppositePair prior entry descriptor (dependentIds entries) then do
      let first ← supersede codec prior none pass
      let both ← supersede codec entry none first
      return { both with pairLatest := Function.update both.pairLatest (key, token) none }
    else .ok kept

/-- Sensitive operations are kept unless their compaction was certified. -/
def OperationOptimization.sensitive : Bool :=
  (descriptor.risk ≠ .ordinary || descriptor.shape = .create || descriptor.shape = .delete ||
    descriptor.shape = .append) && !descriptor.certifiedSensitiveCompaction

end

/-- One turn of the loop over the entries. -/
def compactEntry (registry : OptimizationRegistry) (pass : Pass) : QueueEntry × Nat → Except QueueError Pass
  | (entry, index) =>
    let descriptor := registry.descriptor entry.operation.operationKind
    if descriptor.barrier || entry.mutability ≠ .mutableUnsent then
      .ok { pass with
        latest := fun _ => none
        pairLatest := fun _ => none
        plan := { pass.plan with barriers := pass.plan.barriers + 1 } }
    else if descriptor.sensitive then
      .ok { pass with plan := { pass.plan with sensitivePreserved := pass.plan.sensitivePreserved + 1 } }
    else
      let key := CompactionKey.new entry.operation.entity descriptor
      match descriptor.compaction with
      | .replaceLatest => replaceLatest codec entries descriptor key pass entry index
      | .cancelPairs =>
        match entry.cancellation with
        | none => .ok pass
        | some cancellation => cancelPair codec entries descriptor key cancellation.token pass entry index
      | .never | .merge | .custom => .ok pass

/-- The dependencies of active entries, each before the entry that has it. -/
def dependencyEdges (active : ExtTreeMap OperationId Bool) : List (OperationId × OperationId) :=
  (entries.filter fun entry => (active[entry.id]?).getD false).flatMap fun entry =>
    entry.dependencies.map fun dependency => (dependency, entry.id)

def knownIds : Finset OperationId := (entries.map QueueEntry.id).toFinset

section
variable (active : ExtTreeMap OperationId Bool)

def activeDegrees : ExtTreeMap OperationId Nat :=
  active.filterMap fun _ isActive => if isActive then some 0 else none

/-- An active entry may not depend on one that was made inactive. -/
def requireActive (edge : OperationId × OperationId) :
    Except QueueError Unit :=
  require (¬(edge.1 ∈ knownIds entries ∧ (active[edge.1]?).getD false = false)) (.requiredOperationRemoved edge.1)

def verifyActiveDependencies : Except QueueError Unit := do
  let table ← (dependencyEdges entries active).foldlM
    (fun (table : EdgeTable OperationId) edge => do
      requireActive entries active edge
      return table.connect edge.1 edge.2)
    { indegree := activeDegrees active, dependents := ∅ }
  require (table.drained.visited.length = table.indegree.size) .dependencyCycle

end

def planCompaction (registry : OptimizationRegistry) (maxOperations : Nat) : Except QueueError CompactionPlan := do
  require (entries.length ≤ maxOperations) (.operationLimitExceeded maxOperations)
  validateEntries codec entries
  let pass ← entries.zipIdx.foldlM (compactEntry codec entries registry) (Pass.start entries)
  verifyActiveDependencies entries pass.active
  return { pass.plan with
    operationsAfter := (pass.active.values.filter fun active => active).length
    removeOperations := pass.plan.removeOperations.insertionSort fun left right => (compare left right).isLE
    supersessions := pass.plan.supersessions.insertionSort fun left right =>
      (compare left.oldOperationId right.oldOperationId).isLE }

structure RebaseTarget where
  entity : EntityRef
  version : Option EntityVersion
  changedFields : Finset FieldGroupId

structure RebaseRewrite where
  operationId : OperationId
  (oldBase newBase : Option EntityVersion)
deriving DecidableEq

structure RebasePlan where
  rewrites : List RebaseRewrite
  (conflicts immutableSkipped : List OperationId)
deriving DecidableEq

/-- The intent holds on the new base as it did on the old one. -/
def OperationOptimization.rebases (descriptor : OperationOptimization) (target : RebaseTarget) : Bool :=
  match descriptor.rebase with
  | .reapplyIntent => true
  | .fieldAware =>
    match descriptor.access with
    | .fields reads writes => decide ((reads ∪ writes) ∩ target.changedFields = ∅)
    | .aggregateWide => false
  | .never | .custom => false

def rebaseEntry (targets : ExtTreeMap EntityRef RebaseTarget) (registry : OptimizationRegistry) (plan : RebasePlan)
    (entry : QueueEntry) : RebasePlan :=
  match targets[entry.operation.entity]? with
  | none => plan
  | some target =>
    if entry.mutability ≠ .mutableUnsent then
      { plan with immutableSkipped := plan.immutableSkipped ++ [entry.id] }
    else if (registry.descriptor entry.operation.operationKind).rebases target then
      { plan with rewrites := plan.rewrites ++
          [{ operationId := entry.id, oldBase := entry.operation.baseVersion, newBase := target.version }] }
    else { plan with conflicts := plan.conflicts ++ [entry.id] }

def planRebase (targets : List RebaseTarget) (registry : OptimizationRegistry) : Except QueueError RebasePlan := do
  validateEntries codec entries
  let table : ExtTreeMap EntityRef RebaseTarget :=
    ofList (targets.map fun target => (target.entity, target))
  return entries.foldl (rebaseEntry table registry) { rewrites := [], conflicts := [], immutableSkipped := [] }

end Planner

/-! What the check of the active dependencies decides. -/

section Verify
/-- The active entries in an order in which each comes after its active dependencies. -/
def Ordered (entries : List QueueEntry) (active : ExtTreeMap OperationId Bool) (order : List OperationId) : Prop :=
  order.Perm (activeDegrees active).keys ∧
    ∀ before operation after, order = before ++ operation :: after →
      ∀ dependency ∈ activeDegrees active, (dependency, operation) ∈ dependencyEdges entries active →
        dependency ∈ before

theorem verifyActiveDependencies_eq_ok : verifyActiveDependencies entries active = .ok () ↔
    (∀ edge ∈ dependencyEdges entries active, edge.1 ∈ knownIds entries → active[edge.1]? = some true) ∧
      ∃ order, Ordered entries active order := by
  have unique : (activeDegrees active).keys.Nodup := nodup_keys
  have counted : EdgeTable.Counted (activeDegrees active).keys { indegree := activeDegrees active, dependents := ∅ } := by
    intro operation
    have none : (activeDegrees active).keys.flatMap
        (EdgeTable.outgoing { indegree := activeDegrees active, dependents := ∅ }) = [] := by
      simp [EdgeTable.outgoing]
    rw [none, List.count_nil]
    simp only [mem_keys, mem_iff_isSome_getElem?, activeDegrees,
      getElem?_filterMap']
    cases active[operation]? with
    | none => rfl
    | some isActive => cases isActive <;> rfl
  have passes (edge : OperationId × OperationId) : requireActive entries active edge = .ok () ↔
      (edge.1 ∈ knownIds entries → active[edge.1]? = some true) := by
    rw [requireActive, require_eq_ok, not_and]
    refine imp_congr_right fun _ => ?_
    cases active[edge.1]? with
    | none => simp
    | some isActive => cases isActive <;> simp
  unfold verifyActiveDependencies
  rw [bind_eq_ok_iff]
  simp only [foldlM_checked, require_eq_ok, passes, and_assoc, exists_and_left, exists_eq_left']
  refine and_congr_right fun _ => ((counted.connectAll unique _).drained_iff unique).trans ?_
  refine exists_congr fun order => and_congr_right fun _ => ?_
  have edge_iff (source target : OperationId) :
      target ∈ (EdgeTable.connectAll { indegree := activeDegrees active, dependents := ∅ }
        (dependencyEdges entries active)).outgoing source ↔
      source ∈ activeDegrees active ∧ (source, target) ∈ dependencyEdges entries active := by
    rw [EdgeTable.mem_outgoing_connectAll unique counted, mem_keys]
    simp [EdgeTable.outgoing]
  constructor
  · intro ordered before operation after split dependency inside edge
    exact ordered before operation after split dependency (mem_keys.mpr inside)
      ((edge_iff dependency operation).mpr ⟨inside, edge⟩)
  · intro ordered before operation after split dependency _ edge
    obtain ⟨inside, edge⟩ := (edge_iff dependency operation).mp edge
    exact ordered before operation after split dependency inside edge

end Verify

end Aequora.Queue
