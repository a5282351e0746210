import Aequora.Base.Check
import Aequora.Base.Run
import Aequora.Protocol.Types

/-! The replay guard. Operation identities of all tenants share one table, so a tenant learns of
another exactly where the other was first to use one of its identities. -/

namespace Aequora.Security

open Std Aequora.Base Aequora.Protocol

inductive SecurityError where
  | invalidPolicy (policy : String)
  | payloadMismatch
  | inputLimitExceeded
  | ssrfBlocked

structure OperationBinding where
  operationId : OperationId
  tenantId : TenantId
  digest : Vector UInt8 32
deriving DecidableEq

inductive ReplayDisposition where
  | firstSeen | duplicate

structure OperationReplayGuard where
  maxEntries : Nat
  bindings : ExtTreeMap OperationId OperationBinding

abbrev ReplayAnswer := Except SecurityError ReplayDisposition

namespace OperationReplayGuard

def new (maxEntries : Nat) : Except SecurityError OperationReplayGuard := do
  require (maxEntries ≠ 0) (.invalidPolicy "replay registry")
  return { maxEntries, bindings := ∅ }

def compared (existing binding : OperationBinding) : ReplayAnswer :=
  if existing = binding then .ok .duplicate else .error .payloadMismatch

section
variable (guard : OperationReplayGuard) (binding : OperationBinding)

def observe : ReplayAnswer × OperationReplayGuard :=
  match guard.bindings[binding.operationId]? with
  | some existing => (compared existing binding, guard)
  | none =>
    if guard.bindings.size ≥ guard.maxEntries then (.error .inputLimitExceeded, guard)
    else (.ok .firstSeen, { guard with bindings := guard.bindings.insert binding.operationId binding })

def step : OperationReplayGuard :=
  (guard.observe binding).2

end

section
variable (tenantId : TenantId) (guard : OperationReplayGuard)

def answersTo (binding : OperationBinding) : List ReplayAnswer :=
  if binding.tenantId = tenantId then [(guard.observe binding).1] else []

def answers (observed : List OperationBinding) :
    List ReplayAnswer :=
  Run.trace step (answersTo tenantId) guard observed

end

section
variable (guard : OperationReplayGuard) (observed : List OperationBinding)

/-- The guard is never full. -/
def StaysBelow : Prop :=
  Run.Permitted step (fun guard _ => guard.bindings.size < guard.maxEntries) guard observed

def own (tenantId : TenantId) (observed : List OperationBinding) : List OperationBinding :=
  observed.filter fun binding => decide (binding.tenantId = tenantId)

/-- The binding that an identity gets in a sequence of observations: the first one. -/
def bound (operationId : OperationId) :
    Option OperationBinding :=
  guard.bindings[operationId]?.or (observed.find? fun binding => decide (binding.operationId = operationId))

end

/-- Another tenant was first to use an identity. -/
def preempted (tenantId : TenantId) (guard : OperationReplayGuard) (observed : List OperationBinding)
    (operationId : OperationId) : Bool :=
  (guard.bound observed operationId).any fun binding => decide (binding.tenantId ≠ tenantId)

/-- The answers to a tenant's own observations, once it is known which identities others took. -/
def ownAnswers (taken : OperationId → Bool) :
    (OperationId → Option OperationBinding) → List OperationBinding → List ReplayAnswer
  | _, [] => []
  | table, binding :: rest =>
    if taken binding.operationId then .error .payloadMismatch :: ownAnswers taken table rest
    else match table binding.operationId with
      | some existing => compared existing binding :: ownAnswers taken table rest
      | none => .ok .firstSeen ::
          ownAnswers taken (Function.update table binding.operationId (some binding)) rest

variable {guard : OperationReplayGuard}

theorem observe_bound (held : guard.bindings[binding.operationId]? = some existing) :
    guard.observe binding = (compared existing binding, guard) := by
  rw [observe, held]

theorem observe_unbound (absent : guard.bindings[binding.operationId]? = none)
    (below : guard.bindings.size < guard.maxEntries) :
    guard.observe binding =
      (.ok .firstSeen, { guard with bindings := guard.bindings.insert binding.operationId binding }) := by
  rw [observe, absent]
  exact if_neg (Nat.not_le.mpr below)

theorem bound_step (below : guard.bindings.size < guard.maxEntries) :
    (guard.step binding).bound observed = guard.bound (binding :: observed) := by
  funext operationId
  unfold step bound
  cases held : guard.bindings[binding.operationId]? with
  | some _ =>
    rw [observe_bound held]
    by_cases same : binding.operationId = operationId
    · rw [← same, held, Option.some_or, Option.some_or]
    · rw [List.find?_cons_of_neg (by simpa using same)]
  | none =>
    rw [observe_unbound held below]
    dsimp only
    rw [lookup_insert]
    by_cases same : binding.operationId = operationId
    · rw [if_pos same, List.find?_cons_of_pos (by simpa using same), ← same, held]
      rfl
    · rw [if_neg same, List.find?_cons_of_neg (by simpa using same)]

theorem own_mine (mine : binding.tenantId = tenantId) :
    own tenantId (binding :: observed) = binding :: own tenantId observed :=
  List.filter_cons_of_pos (by simpa using mine)

theorem own_foreign (foreign : binding.tenantId ≠ tenantId) :
    own tenantId (binding :: observed) = own tenantId observed :=
  List.filter_cons_of_neg (by simpa using foreign)

theorem answers_eq (below : guard.StaysBelow observed)
    (agrees : ∀ operationId, preempted tenantId guard observed operationId = false →
      table operationId = guard.bindings[operationId]?) :
    guard.answers tenantId observed =
      ownAnswers (preempted tenantId guard observed) table (own tenantId observed) := by
  induction observed generalizing guard table with
  | nil => rfl
  | cons binding rest ih =>
    obtain ⟨room, below⟩ := below
    have constant : preempted tenantId (guard.step binding) rest = preempted tenantId guard (binding :: rest) := by
      funext operationId
      rw [preempted, bound_step room, preempted]
    have later := fun {table} => @ih (guard.step binding) table below
    rw [constant] at later
    unfold answers at later ⊢
    rw [Run.trace, answersTo]
    cases held : guard.bindings[binding.operationId]? with
    | some existing =>
      have first : guard.bound (binding :: rest) binding.operationId = some existing := by
        rw [bound, held, Option.some_or]
      have kept : guard.step binding = guard := by rw [step, observe_bound held]
      rw [kept] at later ⊢
      rw [observe_bound held, later agrees]
      by_cases mine : binding.tenantId = tenantId
      · rw [if_pos mine, own_mine mine, ownAnswers]
        split
        · next foreign =>
          have different : existing ≠ binding := by
            rintro rfl
            simp [preempted, first, mine] at foreign
          rw [compared, if_neg different]
          rfl
        · next free =>
          rw [agrees _ (by simpa using free), held]
          rfl
      · rw [if_neg mine, own_foreign mine]
        rfl
    | none =>
      have first : guard.bound (binding :: rest) binding.operationId = some binding := by
        rw [bound, held, List.find?_cons_of_pos (by simp), Option.none_or]
      have stepped : (guard.step binding).bindings = guard.bindings.insert binding.operationId binding := by
        rw [step, observe_unbound held room]
      rw [stepped] at later
      simp only [lookup_insert] at later
      rw [observe_unbound held room]
      by_cases mine : binding.tenantId = tenantId
      · have free : preempted tenantId guard (binding :: rest) binding.operationId = false := by
          simp [preempted, first, mine]
        rw [if_pos mine, own_mine mine, ownAnswers, free,
          agrees _ free, held, later]
        · rfl
        · intro operationId untaken
          rw [Function.update_apply, agrees operationId untaken]
          simp only [eq_comm]
      · rw [if_neg mine, own_foreign mine, later]
        · rfl
        · intro operationId untaken
          rw [agrees operationId untaken, if_neg]
          rintro rfl
          simp [preempted, first, mine] at untaken

theorem ownAnswers_eq_iff (shared : ∀ operationId, table operationId ≠ none → taken operationId = others operationId) :
    ownAnswers taken table observed = ownAnswers others table observed ↔
      ∀ binding ∈ observed, taken binding.operationId = others binding.operationId := by
  induction observed generalizing table with
  | nil => simp [ownAnswers]
  | cons binding _ ih =>
    rw [List.forall_mem_cons]
    by_cases agree : taken binding.operationId = others binding.operationId
    · -- The heads are the same, and so is the table they leave.
      have extended : ∀ operationId, Function.update table binding.operationId (some binding) operationId ≠ none →
          taken operationId = others operationId := by
        intro operationId held
        by_cases same : operationId = binding.operationId
        · rw [same, agree]
        · exact shared operationId (by rwa [Function.update_of_ne same] at held)
      rw [ownAnswers, ownAnswers, ← agree]
      split
      · simp [ih shared, agree]
      · split
        · simp [ih shared, agree]
        · simp [ih extended, agree]
    · have absent : table binding.operationId = none := by
        by_contra held
        exact agree (shared _ held)
      cases left : taken binding.operationId <;> cases right : others binding.operationId <;>
        simp_all [ownAnswers]

/-- Two sequences with the same observations of a tenant give it the same answers exactly when other
tenants are first to use the same of its identities in both. -/
theorem answers_eq_iff (tenantId : TenantId) (guard : OperationReplayGuard) (first second : List OperationBinding)
    (firstBelow : guard.StaysBelow first) (secondBelow : guard.StaysBelow second)
    (same : own tenantId first = own tenantId second) :
    guard.answers tenantId first = guard.answers tenantId second ↔
      ∀ binding ∈ own tenantId first,
        guard.preempted tenantId first binding.operationId = guard.preempted tenantId second binding.operationId := by
  rw [answers_eq firstBelow fun _ _ => rfl, answers_eq secondBelow fun _ _ => rfl, ← same]
  apply ownAnswers_eq_iff
  intro _ held
  obtain ⟨_, held⟩ := Option.ne_none_iff_exists'.mp held
  simp [preempted, bound, held]

def exampleBinding (operationId : OperationId) (tenantId : TenantId) : OperationBinding :=
  { operationId, tenantId, digest := Vector.replicate 32 0 }

theorem answers_eq_apart : ∃ guard, new 10 = .ok guard ∧
      guard.answers ⟨1⟩ [exampleBinding ⟨1⟩ ⟨1⟩] =
        guard.answers ⟨1⟩ [exampleBinding ⟨2⟩ ⟨2⟩, exampleBinding ⟨1⟩ ⟨1⟩] := by
  refine ⟨_, rfl, (answers_eq_iff ⟨1⟩ _ [exampleBinding ⟨1⟩ ⟨1⟩]
    [exampleBinding ⟨2⟩ ⟨2⟩, exampleBinding ⟨1⟩ ⟨1⟩] ?_ ?_ rfl).mpr (by decide)⟩
  · exact ⟨by decide, trivial⟩
  · exact ⟨by decide, by decide, trivial⟩

/-- Another tenant that uses the identity first turns a first sight into a mismatch. -/
theorem answers_eq_preempted : ∃ guard, new 10 = .ok guard ∧
      guard.StaysBelow [exampleBinding ⟨1⟩ ⟨2⟩, exampleBinding ⟨1⟩ ⟨1⟩] ∧
      guard.answers ⟨1⟩ [exampleBinding ⟨1⟩ ⟨1⟩] = [.ok .firstSeen] ∧
      guard.answers ⟨1⟩ [exampleBinding ⟨1⟩ ⟨2⟩, exampleBinding ⟨1⟩ ⟨1⟩] = [.error .payloadMismatch] :=
  ⟨_, rfl, ⟨by decide, by decide, trivial⟩, rfl, rfl⟩

end OperationReplayGuard

end Aequora.Security
