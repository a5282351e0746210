import Aequora.Admission.Controller
import Aequora.Base.Run
import Mathlib.Data.List.Perm.Basic

/-! Every counter is the sum over the live permits. Admission and release touch the same counters by
the same amounts, and what fits a budget below `u64::MAX` cannot saturate. -/

namespace Aequora.Admission

open Std Aequora.Base Aequora.Protocol ExtTreeMap

def total (permits : List AdmissionPermit) : Usage where
  inFlight := permits.length
  bytes := (permits.map AdmissionPermit.bytes).foldr (· + ·) 0
  cost := (permits.map AdmissionPermit.cost).foldr (· + ·) 0

/-- A usage that stays within a budget. -/
structure Usage.Within (usage : Usage) (budget : ResourceBudget) : Prop where
  inFlight : usage.inFlight ≤ budget.maxInFlight
  bytes : usage.bytes ≤ budget.maxBytesInFlight
  cost : usage.cost ≤ budget.maxCostUnitsInFlight

/-- Byte and cost budgets below `u64::MAX`. -/
structure ResourceBudget.Bounded (budget : ResourceBudget) : Prop where
  bytes : budget.maxBytesInFlight < u64Max
  cost : budget.maxCostUnitsInFlight < u64Max

structure AdmissionPolicy.Bounded (policy : AdmissionPolicy) : Prop where
  global : policy.global.Bounded
  classes : ∀ workClass, (policy.classOf workClass).budget.Bounded
  resources : ∀ (domain : ResourceDomain) budget,
    policy.resources[domain]? = some budget → budget.Bounded

/-- A budget that allows no more than another. -/
structure ResourceBudget.AtMost (budget limit : ResourceBudget) : Prop where
  inFlight : budget.maxInFlight ≤ limit.maxInFlight
  bytes : budget.maxBytesInFlight ≤ limit.maxBytesInFlight
  cost : budget.maxCostUnitsInFlight ≤ limit.maxCostUnitsInFlight

theorem ResourceBudget.AtMost.refl (budget : ResourceBudget) : budget.AtMost budget :=
  ⟨Nat.le_refl _, Nat.le_refl _, Nat.le_refl _⟩

theorem Usage.Within.mono {usage : Usage} {budget limit : ResourceBudget} (within : usage.Within budget)
    (smaller : budget.AtMost limit) : usage.Within limit :=
  ⟨Nat.le_trans within.inFlight smaller.inFlight, Nat.le_trans within.bytes smaller.bytes,
    Nat.le_trans within.cost smaller.cost⟩

theorem total_perm (same : permits.Perm others) : total permits = total others := by
  have added (amount : AdmissionPermit → Nat) :
      (permits.map amount).foldr (· + ·) 0 = (others.map amount).foldr (· + ·) 0 :=
    (same.map amount).foldr_eq 0
  rw [total, total, same.length_eq, added, added]

theorem subtractUsage_total (permit : AdmissionPermit) (permits : List AdmissionPermit) :
    subtractUsage (total (permit :: permits)) permit.bytes permit.cost = total permits := by
  simp [subtractUsage, total]

section Fits
variable {permit : AdmissionPermit} {budget : ResourceBudget}

section
variable (fit : fits (total permits) budget permit.bytes permit.cost) (bounded : budget.Bounded)
include fit bounded

theorem addUsage_total : addUsage (total permits) permit.bytes permit.cost = total (permit :: permits) := by
  obtain ⟨room, bytes, cost⟩ := fit
  have counted := saturatingAdd_one_of_lt (Nat.lt_of_lt_of_le room budget.sized)
  simp only [addUsage, counted, saturatingAdd_eq_of_le bytes bounded.bytes, saturatingAdd_eq_of_le cost bounded.cost]
  simp [total, Nat.add_comm]

theorem within_total : (total (permit :: permits)).Within budget := by
  rw [← addUsage_total fit bounded]
  obtain ⟨room, bytes, cost⟩ := fit
  refine ⟨?_, bytes, cost⟩
  rw [addUsage, saturatingAdd_one_of_lt (Nat.lt_of_lt_of_le room budget.sized)]
  exact room

end

theorem Usage.Within.of_cons (within : (total (permit :: permits)).Within budget) : (total permits).Within budget := by
  obtain ⟨inFlight, bytes, cost⟩ := within
  constructor
  · exact Nat.le_of_succ_le inFlight
  · exact Nat.le_trans (Nat.le_add_left _ _) bytes
  · exact Nat.le_trans (Nat.le_add_left _ _) cost

end Fits

section Table
variable {Key : Type} [Ord Key] [TransOrd Key] [LawfulEqOrd Key] [DecidableEq Key]

theorem usageOf_charge (table : ExtTreeMap Key Usage) (key other : Key) :
    usageOf (charge bytes cost table key) other =
      if key = other then addUsage (usageOf table other) bytes cost else usageOf table other := by
  unfold usageOf charge
  rw [lookup_insert]
  split
  · next same =>
    subst same
    rfl
  · rfl

theorem usageOf_discharge (table : ExtTreeMap Key Usage) (key other : Key) :
    usageOf (discharge bytes cost table key) other =
      if key = other then subtractUsage (usageOf table other) bytes cost else usageOf table other := by
  unfold usageOf discharge
  cases found : table[key]? with
  | some _ =>
    rw [lookup_insert]
    split
    · next same =>
      subst same
      rw [found]
      rfl
    · rfl
  | none =>
    dsimp only
    split
    · next same =>
      subst same
      rw [found]
      simp [Usage.default, subtractUsage]
    · rfl

/-- A table that holds, under each key, the total of the live permits charged to it, within limits. -/
structure Ledger (table : ExtTreeMap Key Usage) (chargedTo : AdmissionPermit → Key → Bool)
    (limits : Key → ResourceBudget → Prop) (live : List AdmissionPermit) : Prop where
  tallies : ∀ key, usageOf table key = total (live.filter fun permit => chargedTo permit key)
  within : ∀ key budget, limits key budget → (usageOf table key).Within budget

/-- Every key of a permit has room for it, in a budget that respects the limits. -/
def Room (table : ExtTreeMap Key Usage) (limits : Key → ResourceBudget → Prop) (keys : List Key)
    (permit : AdmissionPermit) : Prop :=
  ∀ key ∈ keys, ∃ budget, budget.Bounded ∧
    fits (usageOf table key) budget permit.bytes permit.cost ∧ ∀ limit, limits key limit → budget.AtMost limit

variable {table : ExtTreeMap Key Usage} {keys : List Key}

omit [LawfulEqOrd Key] [DecidableEq Key] in
theorem Ledger.perm (ledger : Ledger table chargedTo limits live) (same : live.Perm rest) :
    Ledger table chargedTo limits rest :=
  ⟨fun key => (ledger.tallies key).trans (total_perm (same.filter _)), ledger.within⟩

theorem Ledger.charged (ledger : Ledger table chargedTo limits live) (distinct : keys.Nodup)
    (charges : ∀ key, chargedTo permit key = decide (key ∈ keys)) (room : Room table limits keys permit) :
    Ledger (keys.foldl (charge permit.bytes permit.cost) table) chargedTo limits (permit :: live) := by
  have effect := foldl_pointwise usageOf (addUsage · permit.bytes permit.cost) usageOf_charge (.inl distinct) table
  have added : ∀ key ∈ keys, ∃ budget, (∀ limit, limits key limit → ResourceBudget.AtMost budget limit) ∧
      usageOf (keys.foldl (charge permit.bytes permit.cost) table) key =
        total (permit :: live.filter fun permit => chargedTo permit key) ∧
      (total (permit :: live.filter fun permit => chargedTo permit key)).Within budget := by
    intro key member
    obtain ⟨budget, bounded, fit, smaller⟩ := room key member
    rw [ledger.tallies key] at fit
    refine ⟨budget, smaller, ?_, within_total fit bounded⟩
    rw [effect key, if_pos member, ledger.tallies key]
    exact addUsage_total fit bounded
  constructor
  · intro key
    rw [List.filter_cons, charges key]
    by_cases member : key ∈ keys
    · obtain ⟨_, _, tallied, _⟩ := added key member
      simpa [member] using tallied
    · rw [effect key, if_neg member]
      simpa [member] using ledger.tallies key
  · intro key limit limited
    by_cases member : key ∈ keys
    · obtain ⟨_, smaller, tallied, within⟩ := added key member
      rw [tallied]
      exact within.mono (smaller limit limited)
    · rw [effect key, if_neg member]
      exact ledger.within key limit limited

omit [LawfulEqOrd Key] [DecidableEq Key] in
theorem Ledger.of_released (ledger : Ledger table chargedTo limits (permit :: rest))
    (tallies : ∀ key, usageOf released key = total (rest.filter fun permit => chargedTo permit key)) :
    Ledger released chargedTo limits rest := by
  refine ⟨tallies, fun key limit limited => ?_⟩
  have before := ledger.within key limit limited
  rw [ledger.tallies key, List.filter_cons] at before
  rw [tallies key]
  split at before
  · exact before.of_cons
  · exact before

theorem Ledger.discharged (ledger : Ledger table chargedTo limits (permit :: rest)) (distinct : keys.Nodup)
    (charges : ∀ key, chargedTo permit key = decide (key ∈ keys)) :
    Ledger (keys.foldl (discharge permit.bytes permit.cost) table) chargedTo limits rest := by
  apply ledger.of_released
  intro key
  have held := ledger.tallies key
  rw [List.filter_cons, charges key] at held
  rw [foldl_pointwise usageOf (subtractUsage · permit.bytes permit.cost) usageOf_discharge (.inl distinct), held]
  by_cases member : key ∈ keys
  · simp only [member, if_true, decide_true]
    exact subtractUsage_total permit _
  · simp [member]

theorem usageOf_dischargeDropping (table : ExtTreeMap Key Usage) (key other : Key) :
    usageOf (dischargeDropping bytes cost table key) other =
      if key = other then
        if (subtractUsage (usageOf table other) bytes cost).inFlight = 0 then .default
        else subtractUsage (usageOf table other) bytes cost
      else usageOf table other := by
  unfold usageOf dischargeDropping
  by_cases same : key = other
  · subst same
    cases found : table[key]? with
    | some usage =>
      dsimp only
      by_cases idle : (subtractUsage usage bytes cost).inFlight = 0
      · rw [if_pos idle, lookup_erase]
        simp [idle]
      · rw [if_neg idle, lookup_insert]
        simp [idle]
    | none => simp [found, Usage.default, subtractUsage]
  · cases found : table[key]? with
    | some _ =>
      dsimp only
      split
      · rw [lookup_erase, if_neg same]
      · rw [lookup_insert, if_neg same]
    | none => rw [if_neg same]

theorem Ledger.dropped (ledger : Ledger table chargedTo limits (permit :: rest))
    (charges : ∀ other, chargedTo permit other = decide (key = other)) :
    Ledger (dischargeDropping permit.bytes permit.cost table key) chargedTo limits rest := by
  apply ledger.of_released
  intro other
  have held := ledger.tallies other
  rw [List.filter_cons, charges other] at held
  rw [usageOf_dischargeDropping, held]
  by_cases same : key = other
  · simp only [same, decide_true, if_true, subtractUsage_total]
    split
    · next idle => rw [List.length_eq_zero_iff.mp idle]; rfl
    · rfl
  · simp [same]

/-- Every entry has work in flight. -/
def Busy (table : ExtTreeMap Key Usage) : Prop :=
  ∀ (key : Key) usage, table[key]? = some usage → 0 < usage.inFlight

theorem Busy.charge (busy : Busy table) (key : Key) : Busy (charge bytes cost table key) := by
  intro other usage found
  rw [Admission.charge, lookup_insert] at found
  split at found
  · cases found
    exact Nat.lt_min.mpr ⟨Nat.succ_pos _, by decide⟩
  · exact busy other usage found

theorem Busy.dropped (busy : Busy table) (key : Key) : Busy (dischargeDropping bytes cost table key) := by
  intro other usage found
  unfold dischargeDropping at found
  split at found
  · split at found
    · rw [lookup_erase] at found
      split at found
      · cases found
      · exact busy other usage found
    · next working =>
      rw [lookup_insert] at found
      split at found
      · cases found
        exact Nat.pos_of_ne_zero working
      · exact busy other usage found
  · exact busy other usage found

theorem Busy.size_le (busy : Busy table) (ledger : Ledger table chargedTo limits live) {keyOf : AdmissionPermit → Key}
    (single : ∀ permit key, chargedTo permit key = decide (keyOf permit = key)) : table.size ≤ live.length := by
  have charged : table.keys ⊆ live.map keyOf := by
    intro key listed
    obtain ⟨usage, found⟩ := mem_iff_lookup.mp (mem_keys.mp listed)
    have working := busy key usage found
    have counted : usage = total (live.filter fun permit => chargedTo permit key) := by
      rw [← ledger.tallies key, usageOf, found]
      rfl
    rw [counted] at working
    obtain ⟨permit, member⟩ := List.exists_mem_of_length_pos working
    obtain ⟨alive, matching⟩ := List.mem_filter.mp member
    rw [single] at matching
    exact List.mem_map.mpr ⟨permit, alive, of_decide_eq_true matching⟩
  calc table.size = table.keys.length := length_keys.symm
    _ ≤ (live.map keyOf).length := (List.subperm_of_subset nodup_keys charged).length_le
    _ = live.length := List.length_map _

end Table

namespace AdmissionState
/-- The usage counters of two states agree. -/
structure SameUsage (state next : AdmissionState) : Prop where
  global : next.global = state.global
  tenants : next.tenants = state.tenants
  classes : next.classes = state.classes
  resources : next.resources = state.resources

/-- What the decision has checked when a permit is given. -/
structure Judged (policy : AdmissionPolicy) (state : AdmissionState) (request : WorkDescriptor)
    (permit : AdmissionPermit) : Prop where
  requested : permit = permitFor request
  global : fits state.global policy.global permit.bytes permit.cost
  tenant : fits (usageOf state.tenants permit.tenantId)
    (weightedTenantBudget policy.tenant.budget policy.global (weightOf policy request)) permit.bytes permit.cost
  workClass : fits (usageOf state.classes permit.workClass) (policy.classOf permit.workClass).budget
    permit.bytes permit.cost
  resources : ∀ domain ∈ permit.resources, ∃ budget, policy.resources[domain]? = some budget ∧
    fits (usageOf state.resources domain) budget permit.bytes permit.cost

theorem judgeCapacity_eq_ok (passed : judgeCapacity policy state request = .ok ()) :
    fits state.global policy.global request.estimatedBytes request.cost.toNat ∧
      fits (usageOf state.tenants request.tenantId)
        (weightedTenantBudget policy.tenant.budget policy.global (weightOf policy request))
        request.estimatedBytes request.cost.toNat := by
  simp only [judgeCapacity, admitGlobal, admitTenant, bind_eq_ok, require_eq_ok, not_or, not_not] at passed
  exact ⟨passed.2.2.1.2, passed.2.2.2⟩

theorem admitResource_eq_ok (passed : admitResource policy state request domain = .ok ()) :
    ∃ budget, policy.resources[domain]? = some budget ∧
      fits (usageOf state.resources domain) budget request.estimatedBytes request.cost.toNat := by
  unfold admitResource at passed
  split at passed
  · cases passed
  · next budget found => exact ⟨budget, found, require_eq_ok.mp passed⟩

theorem judge_eq_ok (judged : judge policy state request = .ok permit) : Judged policy state request permit := by
  obtain ⟨capacity, judged⟩ := check_bind_eq_ok.mp judged
  obtain ⟨_, judged⟩ := check_bind_eq_ok.mp judged
  obtain ⟨admitted, judged⟩ := check_bind_eq_ok.mp judged
  obtain ⟨available, judged⟩ := check_bind_eq_ok.mp judged
  obtain ⟨global, tenant⟩ := judgeCapacity_eq_ok capacity
  cases judged
  exact ⟨rfl, global, tenant, require_eq_ok.mp admitted,
    fun domain member => admitResource_eq_ok (checkAll_eq_ok.mp available domain member)⟩

end AdmissionState

theorem weightedTenantBudget_atMost (tenant global : ResourceBudget) (below : weight ≤ maximum) :
    (weightedTenantBudget tenant global weight).AtMost (weightedTenantBudget tenant global maximum) := by
  have scaled : ∀ limit, saturatingMul limit weight ≤ saturatingMul limit maximum := fun limit =>
    Nat.le_min.mpr ⟨Nat.le_trans (Nat.min_le_left _ _) (Nat.mul_le_mul_left limit below), Nat.min_le_right _ _⟩
  have capped : ∀ limit cap, min (saturatingMul limit weight) cap ≤ min (saturatingMul limit maximum) cap :=
    fun limit cap => Nat.le_min.mpr ⟨Nat.le_trans (Nat.min_le_left _ _) (scaled limit), Nat.min_le_right _ _⟩
  exact ⟨capped _ _, capped _ _, capped _ _⟩

theorem weightedTenantBudget_bounded (bounded : global.Bounded) (weight : Nat) :
    (weightedTenantBudget tenant global weight).Bounded :=
  ⟨Nat.lt_of_le_of_lt (Nat.min_le_right _ _) bounded.bytes, Nat.lt_of_le_of_lt (Nat.min_le_right _ _) bounded.cost⟩

namespace HierarchicalAdmission
/-- All counters are exact and within their budgets. -/
structure Exact (policy : AdmissionPolicy) (controller : HierarchicalAdmission) : Prop where
  global : controller.state.global = total controller.live
  globalWithin : controller.state.global.Within policy.global
  tenants : Ledger controller.state.tenants (fun permit tenant => permit.tenantId = tenant)
    (fun _ budget => budget = weightedTenantBudget policy.tenant.budget policy.global
      policy.tenant.maximumWeight.toNat) controller.live
  classes : Ledger controller.state.classes (fun permit workClass => permit.workClass = workClass)
    (fun workClass budget => budget = (policy.classOf workClass).budget) controller.live
  resources : Ledger controller.state.resources (fun permit domain => domain ∈ permit.resources)
    (fun domain budget => policy.resources[domain]? = some budget) controller.live
  busy : Busy controller.state.tenants
  distinct : ∀ permit ∈ controller.live, permit.resources.Nodup

variable {state : AdmissionState}

theorem Exact.of_sameUsage (exact : Exact policy controller)
    (same : controller.state.SameUsage state) : Exact policy { controller with state } := by
  obtain ⟨global, tenants, classes, resources⟩ := same
  refine ⟨global ▸ exact.global, global ▸ exact.globalWithin, ?_, ?_, ?_, ?_, exact.distinct⟩
  · exact tenants ▸ exact.tenants
  · exact classes ▸ exact.classes
  · exact resources ▸ exact.resources
  · exact tenants ▸ exact.busy

theorem Exact.admitted (exact : Exact policy controller) (bounded : policy.Bounded) (judged : AdmissionState.Judged policy controller.state request permit) :
    Exact policy { state := controller.state.grant permit, live := permit :: controller.live } := by
  have distinct : permit.resources.Nodup := by
    rw [judged.requested]
    exact List.Nodup.filter _ (by decide)
  have fit := judged.global
  rw [exact.global] at fit
  have global : addUsage controller.state.global permit.bytes permit.cost = total (permit :: controller.live) :=
    (congrArg (addUsage · permit.bytes permit.cost) exact.global).trans (addUsage_total fit bounded.global)
  have globalWithin : (addUsage controller.state.global permit.bytes permit.cost).Within policy.global := by
    rw [global]
    exact within_total fit bounded.global
  refine ⟨global, globalWithin, ?_, ?_, ?_, exact.busy.charge _, ?_⟩
  · refine exact.tenants.charged (List.nodup_singleton permit.tenantId) (by simp [eq_comm]) ?_
    intro tenant member
    cases List.mem_singleton.mp member
    refine ⟨_, weightedTenantBudget_bounded bounded.global _, judged.tenant, ?_⟩
    rintro limit rfl
    exact weightedTenantBudget_atMost _ _ (min_le_right _ _)
  · refine exact.classes.charged (List.nodup_singleton permit.workClass) (by simp [eq_comm]) ?_
    intro workClass member
    cases List.mem_singleton.mp member
    refine ⟨_, bounded.classes _, judged.workClass, ?_⟩
    rintro limit rfl
    exact .refl _
  · refine exact.resources.charged distinct (by simp) ?_
    intro domain member
    obtain ⟨budget, found, fit⟩ := judged.resources domain member
    refine ⟨budget, bounded.resources domain budget found, fit, ?_⟩
    intro _ limited
    cases found.symm.trans limited
    exact .refl _
  · exact List.forall_mem_cons.mpr ⟨distinct, exact.distinct⟩

theorem Exact.released (exact : Exact policy { state, live := permit :: rest }) :
    Exact policy { state := state.release permit, live := rest } := by
  obtain ⟨distinct, others⟩ := List.forall_mem_cons.mp exact.distinct
  have global : subtractUsage state.global permit.bytes permit.cost = total rest :=
    (congrArg (subtractUsage · permit.bytes permit.cost) exact.global).trans (subtractUsage_total permit rest)
  have globalWithin : (subtractUsage state.global permit.bytes permit.cost).Within policy.global := by
    have before := exact.globalWithin
    rw [exact.global] at before
    rw [global]
    exact before.of_cons
  refine ⟨global, globalWithin, ?_, ?_, ?_, exact.busy.dropped _, others⟩
  · exact exact.tenants.dropped (by simp)
  · exact exact.classes.discharged (List.nodup_singleton permit.workClass) (by simp [eq_comm])
  · exact exact.resources.discharged distinct (by simp)

theorem Exact.perm {live others : List AdmissionPermit} (same : live.Perm others)
    (exact : Exact policy { state, live }) : Exact policy { state, live := others } :=
  ⟨exact.global.trans (total_perm same), exact.globalWithin, exact.tenants.perm same, exact.classes.perm same,
    exact.resources.perm same, exact.busy, fun permit member => exact.distinct permit (same.mem_iff.mpr member)⟩

theorem recordRejection_sameUsage (state : AdmissionState) (rejection : AdmissionRejection) (workClass : WorkClass) :
    state.SameUsage (state.recordRejection rejection workClass) :=
  ⟨rfl, rfl, rfl, rfl⟩

theorem Exact.step (exact : Exact policy controller) (bounded : policy.Bounded) (action : AdmissionAction) :
    Exact policy (controller.step policy action) := by
  cases action with
  | tryAdmit request =>
    cases judged : controller.state.judge policy request with
    | ok permit =>
      simp only [HierarchicalAdmission.step, AdmissionState.tryAdmit, judged]
      exact exact.admitted bounded (AdmissionState.judge_eq_ok judged)
    | error _ =>
      simp only [HierarchicalAdmission.step, AdmissionState.tryAdmit, judged]
      exact exact.of_sameUsage (recordRejection_sameUsage _ _ _)
  | drop index =>
    cases found : controller.live[index]? with
    | none =>
      simp only [HierarchicalAdmission.step, found]
      exact exact
    | some permit =>
      obtain ⟨bound, here⟩ := List.getElem?_eq_some_iff.mp found
      have moved : controller.live.Perm (permit :: controller.live.eraseIdx index) := by
        rw [← here]
        exact (List.getElem_cons_eraseIdx_perm bound).symm
      simp only [HierarchicalAdmission.step, found]
      exact (Exact.perm moved exact).released
  | setLoadState _ => exact exact.of_sameUsage ⟨rfl, rfl, rfl, rfl⟩

theorem ledger_empty [Ord Key] [TransOrd Key] (chargedTo : AdmissionPermit → Key → Bool)
    (limits : Key → ResourceBudget → Prop) : Ledger ∅ chargedTo limits [] where
  tallies _ := by simp [usageOf, total, Usage.default]
  within _ _ _ := by
    exact ⟨Nat.zero_le _, Nat.zero_le _, Nat.zero_le _⟩

theorem exact_new (policy : AdmissionPolicy) : Exact policy new where
  global := rfl
  globalWithin := ⟨Nat.zero_le _, Nat.zero_le _, Nat.zero_le _⟩
  tenants := ledger_empty _ _
  classes := ledger_empty _ _
  resources := ledger_empty _ _
  busy := by simp [Busy, new, AdmissionState.default]
  distinct := by simp [new]

theorem Exact.trackTenant (exact : Exact policy controller) (valid : policy.validate = .ok ())
    (capacity : controller.state.judgeCapacity policy request = .ok ()) :
    controller.state.trackTenant policy request = .ok () := by
  have tracked : controller.state.tenants.size ≤ controller.state.global.inFlight := by
    rw [exact.global]
    exact exact.busy.size_le exact.tenants (fun _ _ => rfl)
  have room := (AdmissionState.judgeCapacity_eq_ok capacity).1.1
  apply require_eq_ok.mpr
  intro ⟨_, full⟩
  exact Nat.not_lt.mpr full (Nat.lt_of_lt_of_le (Nat.lt_of_le_of_lt tracked room)
    (AdmissionPolicy.tracks_of_valid valid))

/-- The decision if any number of tenants could be tracked. -/
def judgeUntracked (policy : AdmissionPolicy) (state : AdmissionState) (request : WorkDescriptor) :
    Except AdmissionRejection AdmissionPermit := do
  state.judgeCapacity policy request
  state.judgeResources policy request

theorem Exact.judge_eq (exact : Exact policy controller) (valid : policy.validate = .ok ()) (request : WorkDescriptor) :
    controller.state.judge policy request = judgeUntracked policy controller.state request := by
  unfold AdmissionState.judge judgeUntracked
  cases capacity : controller.state.judgeCapacity policy request with
  | error _ => rfl
  | ok _ =>
    rw [exact.trackTenant valid capacity]
    rfl

theorem tryAdmit_rejected
    (rejected : state.tryAdmit policy request = (.error rejection, next)) : state.SameUsage next := by
  unfold AdmissionState.tryAdmit at rejected
  split at rejected
  · cases rejected
  · cases rejected
    exact recordRejection_sameUsage _ _ _

/-- Nothing is in use and no tenant is tracked. -/
structure Idle (state : AdmissionState) : Prop where
  global : state.global = .default
  tenants : state.tenants = ∅
  classes : ∀ workClass, usageOf state.classes workClass = .default
  resources : ∀ domain, usageOf state.resources domain = .default

theorem Exact.idle (exact : Exact policy controller) (dropped : controller.live = []) : Idle controller.state where
  global := by rw [exact.global, dropped]; rfl
  tenants := by
    have none := exact.busy.size_le exact.tenants (fun _ _ => rfl)
    rw [dropped, List.length_nil, Nat.le_zero] at none
    exact eq_empty_iff_size_eq_zero.mpr none
  classes workClass := by rw [exact.classes.tallies workClass, dropped]; rfl
  resources domain := by rw [exact.resources.tallies domain, dropped]; rfl

/-- What holds of a controller after any calls. -/
structure Accounted (policy : AdmissionPolicy) (controller : HierarchicalAdmission) : Prop where
  exact : Exact policy controller
  rejected : ∀ request rejection next,
    controller.state.tryAdmit policy request = (.error rejection, next) → controller.state.SameUsage next
  untracked : ∀ request, controller.state.judge policy request = judgeUntracked policy controller.state request
  idle : controller.live = [] → Idle controller.state

/-- Under a validated policy with byte and cost budgets below `u64::MAX`, any interleaving of
admissions, permit drops and load changes keeps the accounts exact. -/
theorem admission_accounted (policy : AdmissionPolicy) (valid : policy.validate = .ok ()) (bounded : policy.Bounded)
    (actions : List AdmissionAction) : Run.Throughout (step policy) (Accounted policy) new actions := by
  have exact : Run.Throughout (step policy) (Exact policy) new actions :=
    .of_invariant (exact_new policy) fun _ action exact => exact.step bounded action
  exact exact.mono fun _ exact =>
    ⟨exact, fun _ _ _ => tryAdmit_rejected, exact.judge_eq valid, exact.idle⟩

/-- A small request that names one resource twice. -/
def exampleWork : WorkDescriptor where
  tenantId := ⟨1⟩
  tenantWeight := 1
  workClass := .normal
  cost := 3
  shape :=
    { operations := 1
      encodedBytes := 5
      decompressedBytes := 5
      scopes := 0
      dependencyEdges := 0
      dependencyDepth := 0 }
  estimatedResponseBytes := 2
  resources := [.syncExchange, .syncExchange]

theorem default_bounded : AdmissionPolicy.default.Bounded where
  global := by constructor <;> decide
  classes workClass := by cases workClass <;> constructor <;> decide
  resources domain budget found := by
    cases domain <;> cases found <;> constructor <;> decide

/-- The default policy admits a request, charges its resource once, and gives everything back. -/
theorem admission_accounted_default :
    usageOf (step AdmissionPolicy.default new (.tryAdmit exampleWork)).state.resources .syncExchange =
        { inFlight := 1, bytes := 7, cost := 3 } ∧
      Run.Throughout (step AdmissionPolicy.default) (Accounted AdmissionPolicy.default) new
        [.tryAdmit exampleWork, .setLoadState .critical, .tryAdmit exampleWork, .drop 0] :=
  ⟨rfl, admission_accounted AdmissionPolicy.default AdmissionPolicy.default_valid default_bounded _⟩

end HierarchicalAdmission

end Aequora.Admission
