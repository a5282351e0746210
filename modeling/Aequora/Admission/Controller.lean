import Aequora.Admission.Policy

/-! The admission controller: its counters, the decision about a request, and the release of a
permit. Every call holds the lock, so calls are steps. -/

namespace Aequora.Admission

open Std Aequora.Base Aequora.Protocol

/-- Payload-free metadata of one request. -/
structure WorkDescriptor where
  tenantId : TenantId
  tenantWeight : UInt16
  workClass : WorkClass
  cost : UInt32
  shape : RequestShape
  estimatedResponseBytes : Nat
  resources : List ResourceDomain

namespace WorkDescriptor

def estimatedBytes (request : WorkDescriptor) : Nat :=
  let bytes := saturatingAdd request.shape.decompressedBytes request.estimatedResponseBytes
  if bytes = 0 then 1 else bytes

def domains (request : WorkDescriptor) : List ResourceDomain :=
  resourceDomains.filter fun domain => domain ∈ request.resources

end WorkDescriptor

structure Usage where
  (inFlight bytes cost : Nat)

def Usage.default : Usage := { inFlight := 0, bytes := 0, cost := 0 }

def subtractUsage (usage : Usage) (bytes cost : Nat) : Usage where
  inFlight := usage.inFlight - 1
  bytes := usage.bytes - bytes
  cost := usage.cost - cost

def addUsage (usage : Usage) (bytes cost : Nat) : Usage where
  inFlight := saturatingAdd usage.inFlight 1
  bytes := saturatingAdd usage.bytes bytes
  cost := saturatingAdd usage.cost cost

/-- What a permit holds until it is dropped. -/
structure AdmissionPermit where
  tenantId : TenantId
  workClass : WorkClass
  (bytes cost : Nat)
  resources : List ResourceDomain

structure AdmissionState where
  global : Usage
  tenants : ExtTreeMap TenantId Usage
  classes : ExtTreeMap WorkClass Usage
  resources : ExtTreeMap ResourceDomain Usage
  loadState : LoadState
  allowedTotal : Nat
  rejectedTotal : Vector Nat 8
  rejectedByClass : Vector Nat 6

section Table
variable {Key : Type} [Ord Key] [TransOrd Key]

def usageOf (table : ExtTreeMap Key Usage) (key : Key) : Usage := (table[key]?).getD .default

section
variable (bytes cost : Nat) (table : ExtTreeMap Key Usage) (key : Key)

def charge : ExtTreeMap Key Usage :=
  table.insert key (addUsage (usageOf table key) bytes cost)

def discharge : ExtTreeMap Key Usage :=
  match table[key]? with
  | some usage => table.insert key (subtractUsage usage bytes cost)
  | none => table

/-- As `discharge`, but an entry without work in flight is dropped. -/
def dischargeDropping : ExtTreeMap Key Usage :=
  match table[key]? with
  | some usage =>
    if (subtractUsage usage bytes cost).inFlight = 0 then table.erase key
    else table.insert key (subtractUsage usage bytes cost)
  | none => table

end

end Table

def weightedTenantBudget (tenant global : ResourceBudget) (weight : Nat) : ResourceBudget where
  maxInFlight := min (saturatingMul tenant.maxInFlight weight) global.maxInFlight
  maxQueue := min (saturatingMul tenant.maxQueue weight) global.maxQueue
  maxBytesInFlight := min (saturatingMul tenant.maxBytesInFlight weight) global.maxBytesInFlight
  maxCostUnitsInFlight := min (saturatingMul tenant.maxCostUnitsInFlight weight) global.maxCostUnitsInFlight
  sized := Nat.le_trans (Nat.min_le_right _ _) global.sized

def scaledLimit (limit percent : Nat) : Nat :=
  let scaled := (saturatingMul limit percent + 99) / 100
  if scaled = 0 then 1 else scaled

section
variable (current : Usage) (budget : ResourceBudget) (bytes cost : Nat)

def fits : Prop :=
  current.inFlight < budget.maxInFlight ∧ saturatingAdd current.bytes bytes ≤ budget.maxBytesInFlight ∧
    saturatingAdd current.cost cost ≤ budget.maxCostUnitsInFlight

instance fitsDecidable :
    Decidable (fits current budget bytes cost) :=
  inferInstanceAs (Decidable (_ ∧ _ ∧ _))

end

def rejectionIndex : AdmissionRejection → Fin 8
  | .serverBusy _ => 0
  | .tenantBusy _ => 1
  | .rateLimited _ => 2
  | .queueFull _ => 3
  | .resourceBudgetExceeded _ => 4
  | .requestTooLarge => 5
  | .tooManyDependencies => 6
  | .loadShed _ => 7
  | .brownout _ => 7

namespace AdmissionState

def default : AdmissionState where
  global := .default
  tenants := ∅
  classes := ∅
  resources := ∅
  loadState := .healthy
  allowedTotal := 0
  rejectedTotal := Vector.replicate 8 0
  rejectedByClass := Vector.replicate 6 0

def recordRejection (state : AdmissionState) (rejection : AdmissionRejection) (workClass : WorkClass) :
    AdmissionState :=
  { state with
    rejectedTotal := state.rejectedTotal.set (rejectionIndex rejection)
      (saturatingAdd (state.rejectedTotal.get (rejectionIndex rejection)) 1)
    rejectedByClass := state.rejectedByClass.set workClass.index
      (saturatingAdd (state.rejectedByClass.get workClass.index) 1) }

/-- Reservations of the other classes that are not in use. The sum wraps like `usize`, which takes
reservations that only a budget of `usize::MAX` admits. -/
def unusedOtherReservations (policy : AdmissionPolicy) (state : AdmissionState) (workClass : WorkClass) : Nat :=
  ((Admission.classes.filter fun other => other ≠ workClass).map fun other =>
    (policy.classOf other).reservedInFlight - (usageOf state.classes other).inFlight).foldr (· + ·) 0 % (u64Max + 1)

variable (policy : AdmissionPolicy) (state : AdmissionState) (request : WorkDescriptor)

/-- Capacity left beside the reservations of other classes, and the global budget. -/
def admitGlobal : Except AdmissionRejection Unit :=
  let globalLimit := scaledLimit policy.global.maxInFlight (policy.load.capacityPercent state.loadState)
  let classAwareGlobalLimit := globalLimit - unusedOtherReservations policy state request.workClass
  require (¬(state.global.inFlight ≥ classAwareGlobalLimit ∨
    ¬fits state.global policy.global request.estimatedBytes request.cost.toNat)) (.serverBusy policy.retryAfterMs)

def weightOf : Nat := min (max request.tenantWeight.toNat 1) policy.tenant.maximumWeight.toNat

def admitTenant : Except AdmissionRejection Unit :=
  require (fits (usageOf state.tenants request.tenantId)
    (weightedTenantBudget policy.tenant.budget policy.global (weightOf policy request))
    request.estimatedBytes request.cost.toNat) (.tenantBusy policy.retryAfterMs)

def trackTenant : Except AdmissionRejection Unit :=
  require (¬(request.tenantId ∉ state.tenants ∧ state.tenants.size ≥ policy.tenant.maxTrackedTenants))
    (.tenantBusy policy.retryAfterMs)

def admitClass : Except AdmissionRejection Unit :=
  require (fits (usageOf state.classes request.workClass) (policy.classOf request.workClass).budget
    request.estimatedBytes request.cost.toNat) (.resourceBudgetExceeded policy.retryAfterMs)

def admitResource (domain : ResourceDomain) : Except AdmissionRejection Unit :=
  match policy.resources[domain]? with
  | none => .error (.resourceBudgetExceeded policy.retryAfterMs)
  | some budget => require (fits (usageOf state.resources domain) budget request.estimatedBytes request.cost.toNat)
      (.resourceBudgetExceeded policy.retryAfterMs)

def permitFor : AdmissionPermit where
  tenantId := request.tenantId
  workClass := request.workClass
  bytes := request.estimatedBytes
  cost := request.cost.toNat
  resources := request.domains

/-- The checks before the number of tracked tenants is looked at. -/
def judgeCapacity : Except AdmissionRejection Unit := do
  policy.requestLimits.check request.shape
  require (LoadPolicy.allows state.loadState request.workClass) (.loadShed policy.retryAfterMs)
  admitGlobal policy state request
  admitTenant policy state request

def judgeResources : Except AdmissionRejection AdmissionPermit := do
  admitClass policy state request
  checkAll (admitResource policy state request) request.domains
  return permitFor request

def judge : Except AdmissionRejection AdmissionPermit := do
  judgeCapacity policy state request
  trackTenant policy state request
  judgeResources policy state request

/-- Takes up the charges of a permit. -/
def grant (permit : AdmissionPermit) : AdmissionState :=
  { state with
    global := addUsage state.global permit.bytes permit.cost
    tenants := charge permit.bytes permit.cost state.tenants permit.tenantId
    classes := charge permit.bytes permit.cost state.classes permit.workClass
    resources := permit.resources.foldl (charge permit.bytes permit.cost) state.resources
    allowedTotal := saturatingAdd state.allowedTotal 1 }

def tryAdmit : Except AdmissionRejection AdmissionPermit × AdmissionState :=
  match judge policy state request with
  | .ok permit => (.ok permit, state.grant permit)
  | .error rejection => (.error rejection, state.recordRejection rejection request.workClass)

/-- Gives back the charges of a dropped permit. -/
def release (permit : AdmissionPermit) : AdmissionState :=
  { state with
    global := subtractUsage state.global permit.bytes permit.cost
    tenants := dischargeDropping permit.bytes permit.cost state.tenants permit.tenantId
    classes := discharge permit.bytes permit.cost state.classes permit.workClass
    resources := permit.resources.foldl (discharge permit.bytes permit.cost) state.resources }

def setLoadState (loadState : LoadState) : AdmissionState := { state with loadState }

end AdmissionState

structure HierarchicalAdmission where
  state : AdmissionState
  live : List AdmissionPermit

inductive AdmissionAction where
  | tryAdmit (request : WorkDescriptor)
  | drop (index : Nat)
  | setLoadState (loadState : LoadState)

namespace HierarchicalAdmission

def new : HierarchicalAdmission := { state := .default, live := [] }

def step (policy : AdmissionPolicy) (controller : HierarchicalAdmission) : AdmissionAction → HierarchicalAdmission
  | .tryAdmit request =>
    match controller.state.tryAdmit policy request with
    | (.ok permit, state) => { state, live := permit :: controller.live }
    | (.error _, state) => { controller with state }
  | .drop index =>
    match controller.live[index]? with
    | some permit => { state := controller.state.release permit, live := controller.live.eraseIdx index }
    | none => controller
  | .setLoadState loadState => { controller with state := controller.state.setLoadState loadState }

end HierarchicalAdmission

end Aequora.Admission
