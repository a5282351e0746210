import Aequora.Base.Check
import Aequora.Protocol.Types

/-! The admission policy of a server and the checks it passes before it is used. Sizes are `usize`
on a 64-bit target. -/

namespace Aequora.Admission

open Std Aequora.Base Aequora.Protocol

inductive WorkClass where
  | critical | interactive | normal | bulk | background | maintenance
deriving DecidableEq

/-- The order of declaration. -/
def WorkClass.index : WorkClass → Fin 6
  | .critical => 0
  | .interactive => 1
  | .normal => 2
  | .bulk => 3
  | .background => 4
  | .maintenance => 5

instance workClassOrd : Ord WorkClass := ⟨compareOn WorkClass.index⟩
instance workClassTransOrd : TransOrd WorkClass := inferInstanceAs (TransCmp (compareOn WorkClass.index))
instance workClassLawfulEqOrd : LawfulEqOrd WorkClass :=
  lawfulEq_compareOn WorkClass.index (by intro left right; cases left <;> cases right <;> decide)

def classes : List WorkClass := [.critical, .interactive, .normal, .bulk, .background, .maintenance]

/-- Independently protected server resource domains. -/
inductive ResourceDomain where
  | httpRequest | syncExchange | databaseTransaction | interactiveCpu | bulkCpu | maintenanceCpu
  | snapshotBuild | snapshotDownload | blobTransfer | liveConnection | backgroundJob
deriving DecidableEq

/-- The order of declaration. -/
def ResourceDomain.index : ResourceDomain → Fin 11
  | .httpRequest => 0
  | .syncExchange => 1
  | .databaseTransaction => 2
  | .interactiveCpu => 3
  | .bulkCpu => 4
  | .maintenanceCpu => 5
  | .snapshotBuild => 6
  | .snapshotDownload => 7
  | .blobTransfer => 8
  | .liveConnection => 9
  | .backgroundJob => 10

instance resourceDomainOrd : Ord ResourceDomain := ⟨compareOn ResourceDomain.index⟩
instance resourceDomainTransOrd : TransOrd ResourceDomain :=
  inferInstanceAs (TransCmp (compareOn ResourceDomain.index))
instance resourceDomainLawfulEqOrd : LawfulEqOrd ResourceDomain :=
  lawfulEq_compareOn ResourceDomain.index (by intro left right; cases left <;> cases right <;> decide)

def resourceDomains : List ResourceDomain :=
  [.httpRequest, .syncExchange, .databaseTransaction, .interactiveCpu, .bulkCpu, .maintenanceCpu, .snapshotBuild,
    .snapshotDownload, .blobTransfer, .liveConnection, .backgroundJob]

inductive AdmissionRejection where
  | serverBusy (retryAfterMs : Nat)
  | tenantBusy (retryAfterMs : Nat)
  | rateLimited (retryAfterMs : Nat)
  | queueFull (retryAfterMs : Nat)
  | resourceBudgetExceeded (retryAfterMs : Nat)
  | requestTooLarge
  | tooManyDependencies
  | loadShed (retryAfterMs : Nat)
  | brownout (retryAfterMs : Nat)

inductive PolicyError where
  | invalidResourceBudget | invalidRequestLimits | invalidTenantPolicy | invalidClassPolicy
  | missingResourceBudget | invalidLoadPolicy | invalidQueuePolicy | invalidRateLimit

/-- Explicit bound for one admission scope. -/
structure ResourceBudget where
  (maxInFlight maxQueue maxBytesInFlight maxCostUnitsInFlight : Nat)
  sized : maxInFlight ≤ u64Max

def ResourceBudget.validate (budget : ResourceBudget) : Except PolicyError Unit :=
  require (¬(budget.maxInFlight = 0 ∨ budget.maxBytesInFlight = 0 ∨ budget.maxCostUnitsInFlight = 0))
    .invalidResourceBudget

def budget (inFlight queue mebibytes cost : Nat) (sized : inFlight ≤ u64Max) : ResourceBudget where
  maxInFlight := inFlight
  maxQueue := queue
  maxBytesInFlight := mebibytes * 1024 * 1024
  maxCostUnitsInFlight := cost
  sized

def ResourceBudget.default : ResourceBudget := budget 256 512 256 100000 (by decide)

/-- What a request asks for, as checked before any work. -/
structure RequestShape where
  (operations encodedBytes decompressedBytes scopes dependencyEdges dependencyDepth : Nat)

structure RequestLimits where
  (maxOperations maxEncodedBytes maxDecompressedBytes maxScopes maxDependencyEdges : Nat)
  maxDependencyDepth : Nat

namespace RequestLimits

def default : RequestLimits where
  maxOperations := 1000
  maxEncodedBytes := 4 * 1024 * 1024
  maxDecompressedBytes := 16 * 1024 * 1024
  maxScopes := 32
  maxDependencyEdges := 5000
  maxDependencyDepth := 128

def validate (limits : RequestLimits) : Except PolicyError Unit :=
  require (¬(limits.maxOperations = 0 ∨ limits.maxEncodedBytes = 0 ∨
    limits.maxDecompressedBytes < limits.maxEncodedBytes ∨ limits.maxScopes = 0 ∨
    limits.maxDependencyEdges = 0 ∨ limits.maxDependencyDepth = 0)) .invalidRequestLimits

def check (limits : RequestLimits) (shape : RequestShape) : Except AdmissionRejection Unit := do
  require (¬(shape.operations > limits.maxOperations ∨ shape.encodedBytes > limits.maxEncodedBytes ∨
    shape.decompressedBytes > limits.maxDecompressedBytes ∨ shape.scopes > limits.maxScopes)) .requestTooLarge
  require (¬(shape.dependencyEdges > limits.maxDependencyEdges ∨
    shape.dependencyDepth > limits.maxDependencyDepth)) .tooManyDependencies

end RequestLimits

structure FairQueueConfig where
  (maxQueued maxQueuedPerTenant maxQueuedBytes criticalCapacity interactiveCapacity : Nat)
  (normalCapacity bulkCapacity backgroundCapacity maintenanceCapacity : Nat)
  (criticalWeight interactiveWeight normalWeight bulkWeight backgroundWeight : UInt8)
  maintenanceWeight : UInt8
  agingQuantumMs : Nat

namespace FairQueueConfig

def default : FairQueueConfig where
  maxQueued := 512
  maxQueuedPerTenant := 64
  maxQueuedBytes := 256 * 1024 * 1024
  criticalCapacity := 64
  interactiveCapacity := 192
  normalCapacity := 192
  bulkCapacity := 32
  backgroundCapacity := 24
  maintenanceCapacity := 8
  criticalWeight := 8
  interactiveWeight := 6
  normalWeight := 4
  bulkWeight := 2
  backgroundWeight := 1
  maintenanceWeight := 1
  agingQuantumMs := 1000

section
variable (config : FairQueueConfig)

def capacities : List Nat :=
  [config.criticalCapacity, config.interactiveCapacity, config.normalCapacity, config.bulkCapacity,
    config.backgroundCapacity, config.maintenanceCapacity]

def weights : List UInt8 :=
  [config.criticalWeight, config.interactiveWeight, config.normalWeight, config.bulkWeight,
    config.backgroundWeight, config.maintenanceWeight]

def validate : Except PolicyError Unit :=
  require (¬(config.maxQueued = 0 ∨ config.maxQueuedPerTenant = 0 ∨ config.maxQueuedPerTenant > config.maxQueued ∨
    config.maxQueuedBytes = 0 ∨ config.capacities.foldl saturatingAdd 0 < config.maxQueued ∨
    0 ∈ config.capacities ∨ 0 ∈ config.weights ∨ config.agingQuantumMs = 0)) .invalidQueuePolicy

end

end FairQueueConfig

structure RateLimit where
  (tokensPerSecond burst : UInt32)

def RateLimit.validate (limit : RateLimit) : Except PolicyError Unit :=
  require (¬(limit.tokensPerSecond = 0 ∨ limit.burst = 0)) .invalidRateLimit

inductive LoadState where
  | healthy | elevated | overloaded | critical

structure LoadThresholds where
  (elevatedEnter elevatedExit overloadedEnter overloadedExit criticalEnter criticalExit : Nat)
  minimumDwellMs : Nat

def LoadThresholds.validate (thresholds : LoadThresholds) : Except PolicyError Unit :=
  require (¬(thresholds.minimumDwellMs = 0 ∨ thresholds.elevatedExit ≥ thresholds.elevatedEnter ∨
    thresholds.overloadedExit ≥ thresholds.overloadedEnter ∨ thresholds.criticalExit ≥ thresholds.criticalEnter ∨
    thresholds.elevatedEnter ≥ thresholds.overloadedEnter ∨
    thresholds.overloadedEnter ≥ thresholds.criticalEnter ∨ thresholds.criticalEnter > 1000)) .invalidLoadPolicy

structure LoadPolicy where
  thresholds : LoadThresholds
  (healthyCapacityPercent elevatedCapacityPercent overloadedCapacityPercent : Nat)
  (criticalCapacityPercent preferredMaxBatchOpsOverloaded preferredMaxBatchBytesOverloaded : Nat)

namespace LoadPolicy

def default : LoadPolicy where
  thresholds :=
    { elevatedEnter := 700
      elevatedExit := 600
      overloadedEnter := 850
      overloadedExit := 750
      criticalEnter := 950
      criticalExit := 850
      minimumDwellMs := 5000 }
  healthyCapacityPercent := 100
  elevatedCapacityPercent := 85
  overloadedCapacityPercent := 60
  criticalCapacityPercent := 25
  preferredMaxBatchOpsOverloaded := 128
  preferredMaxBatchBytesOverloaded := 512 * 1024

def validate (load : LoadPolicy) : Except PolicyError Unit := do
  load.thresholds.validate
  require (¬(load.healthyCapacityPercent = 0 ∨ load.healthyCapacityPercent > 100 ∨
    load.elevatedCapacityPercent = 0 ∨ load.elevatedCapacityPercent > load.healthyCapacityPercent ∨
    load.overloadedCapacityPercent = 0 ∨ load.overloadedCapacityPercent > load.elevatedCapacityPercent ∨
    load.criticalCapacityPercent = 0 ∨ load.criticalCapacityPercent > load.overloadedCapacityPercent ∨
    load.preferredMaxBatchOpsOverloaded = 0 ∨ load.preferredMaxBatchBytesOverloaded = 0)) .invalidLoadPolicy

def capacityPercent (load : LoadPolicy) : LoadState → Nat
  | .healthy => load.healthyCapacityPercent
  | .elevated => load.elevatedCapacityPercent
  | .overloaded => load.overloadedCapacityPercent
  | .critical => load.criticalCapacityPercent

/-- Low-value work is shed first. -/
def allows : LoadState → WorkClass → Bool
  | .healthy, _ => true
  | .elevated, workClass => workClass != .maintenance
  | .overloaded, workClass => !(workClass == .bulk || workClass == .background || workClass == .maintenance)
  | .critical, workClass => workClass == .critical || workClass == .interactive

end LoadPolicy

structure ClassBudget where
  budget : ResourceBudget
  reservedInFlight : Nat

def classBudget (max reserved : Nat) (sized : max ≤ u64Max) : ClassBudget where
  budget := budget max max 256 100000 sized
  reservedInFlight := reserved

structure TenantAdmissionPolicy where
  budget : ResourceBudget
  maximumWeight : UInt16
  maxTrackedTenants : Nat

structure AdmissionPolicy where
  global : ResourceBudget
  tenant : TenantAdmissionPolicy
  (critical interactive normal bulk background maintenance : ClassBudget)
  resources : ExtTreeMap ResourceDomain ResourceBudget
  queue : FairQueueConfig
  (connectionRate tenantRequestRate : RateLimit)
  requestLimits : RequestLimits
  load : LoadPolicy
  retryAfterMs : Nat

namespace AdmissionPolicy

def defaultResources : List (ResourceDomain × ResourceBudget) :=
  [(.httpRequest, budget 256 512 256 100000 (by decide)),
    (.syncExchange, budget 200 500 256 100000 (by decide)),
    (.databaseTransaction, budget 100 200 128 50000 (by decide)),
    (.interactiveCpu, budget 16 64 32 20000 (by decide)),
    (.bulkCpu, budget 4 16 64 20000 (by decide)),
    (.maintenanceCpu, budget 2 8 32 10000 (by decide)),
    (.snapshotBuild, budget 2 8 128 20000 (by decide)),
    (.snapshotDownload, budget 32 128 512 40000 (by decide)),
    (.blobTransfer, budget 32 128 512 40000 (by decide)),
    (.liveConnection, budget 1000 2000 64 10000 (by decide)),
    (.backgroundJob, budget 16 256 128 30000 (by decide))]

def default : AdmissionPolicy where
  global := .default
  tenant :=
    { budget := budget 40 64 64 25000 (by decide)
      maximumWeight := 8
      maxTrackedTenants := 4096 }
  critical := classBudget 64 16 (by decide)
  interactive := classBudget 128 32 (by decide)
  normal := classBudget 192 8 (by decide)
  bulk := classBudget 32 4 (by decide)
  background := classBudget 16 2 (by decide)
  maintenance := classBudget 8 1 (by decide)
  resources := .ofList defaultResources compare
  queue := .default
  connectionRate := { tokensPerSecond := 100, burst := 200 }
  tenantRequestRate := { tokensPerSecond := 64, burst := 128 }
  requestLimits := .default
  load := .default
  retryAfterMs := 1000

section
variable (policy : AdmissionPolicy)

/-- The budget of a class. -/
def classOf : WorkClass → ClassBudget
  | .critical => policy.critical
  | .interactive => policy.interactive
  | .normal => policy.normal
  | .bulk => policy.bulk
  | .background => policy.background
  | .maintenance => policy.maintenance

/-- One round of the loop over the classes, with the reservations added up so far. -/
def validateClass (reserved : Nat) (workClass : WorkClass) : Except PolicyError Nat := do
  (policy.classOf workClass).budget.validate
  require (¬(policy.classOf workClass).reservedInFlight > (policy.classOf workClass).budget.maxInFlight)
    .invalidClassPolicy
  return saturatingAdd reserved (policy.classOf workClass).reservedInFlight

def validateResource (domain : ResourceDomain) : Except PolicyError Unit :=
  match policy.resources[domain]? with
  | none => .error .missingResourceBudget
  | some budget => budget.validate

def validate : Except PolicyError Unit := do
  policy.global.validate
  policy.tenant.budget.validate
  policy.requestLimits.validate
  policy.queue.validate
  policy.connectionRate.validate
  policy.tenantRequestRate.validate
  policy.load.validate
  require (¬(policy.retryAfterMs = 0 ∨ policy.tenant.maximumWeight = 0 ∨
    policy.tenant.budget.maxInFlight > policy.global.maxInFlight ∨
    policy.tenant.maxTrackedTenants < policy.global.maxInFlight)) .invalidTenantPolicy
  let reserved ← classes.foldlM policy.validateClass 0
  require (¬reserved > policy.global.maxInFlight) .invalidClassPolicy
  checkAll policy.validateResource resourceDomains

end

theorem default_valid : default.validate = .ok () := rfl

theorem tracks_of_valid {policy : AdmissionPolicy} (valid : policy.validate = .ok ()) :
    policy.global.maxInFlight ≤ policy.tenant.maxTrackedTenants := by
  simp only [validate, check_bind_eq_ok, require_eq_ok, not_or, Nat.not_lt] at valid
  obtain ⟨_, _, _, _, _, _, _, ⟨_, _, _, tracks⟩, _⟩ := valid
  exact tracks

end AdmissionPolicy

end Aequora.Admission
