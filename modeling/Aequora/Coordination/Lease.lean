import Aequora.Base.Check
import Aequora.Base.Run
import Aequora.Base.Word

/-! Local coordinator leases. Nothing here rests on the clocks of the hosts: a fencing token that
was superseded or released is retired, and no call brings it back. -/

namespace Aequora.Coordination

open Aequora.Base Run

structure LocalStoreId where
  uuid : BitVec 128
deriving DecidableEq

structure ProcessInstanceId where
  uuid : BitVec 128
deriving DecidableEq

inductive CoordinationError where
  | leaseHeld | staleFence | storeMismatch | generationChanged | maintenanceRequired | invalidTtl
  | timestampOverflow | tokenExhausted | generationExhausted | unsupportedProcessMode

structure FencingToken where
  value : Nat
deriving DecidableEq

def FencingToken.checkedNext (token : FencingToken) : Except CoordinationError FencingToken :=
  match checkedAdd token.value 1 with
  | some value => .ok ⟨value⟩
  | none => .error .tokenExhausted

structure LocalStoreGeneration where
  value : Nat
deriving DecidableEq

def LocalStoreGeneration.initial : LocalStoreGeneration := ⟨1⟩

def LocalStoreGeneration.checkedNext (generation : LocalStoreGeneration) :
    Except CoordinationError LocalStoreGeneration :=
  match checkedAdd generation.value 1 with
  | some value => .ok ⟨value⟩
  | none => .error .generationExhausted

inductive LeaseKind where
  | syncCoordinator | maintenance
deriving DecidableEq

/-- What a successful acquisition hands out. -/
structure LeaseGrant where
  storeId : LocalStoreId
  ownerId : ProcessInstanceId
  fencingToken : FencingToken
  storeGeneration : LocalStoreGeneration
  kind : LeaseKind
  expiresAtUnixMs : Nat

structure LeaseRequest where
  ownerId : ProcessInstanceId
  kind : LeaseKind
  (nowUnixMs ttlMs : Nat)

def LeaseRequest.expiresAt (request : LeaseRequest) : Except CoordinationError Nat :=
  if request.ttlMs = 0 then .error .invalidTtl
  else
    match checkedAdd request.nowUnixMs request.ttlMs with
    | some value => .ok value
    | none => .error .timestampOverflow

/-- Durable coordination state. The owner is absent after a release. -/
structure CoordinationSnapshot where
  storeId : LocalStoreId
  storeGeneration : LocalStoreGeneration
  fencingToken : FencingToken
  ownerId : Option ProcessInstanceId
  kind : LeaseKind
  expiresAtUnixMs : Nat

namespace CoordinationSnapshot

def isActive (snapshot : CoordinationSnapshot) (nowUnixMs : Nat) : Bool :=
  snapshot.ownerId.isSome && decide (nowUnixMs < snapshot.expiresAtUnixMs)

/-- Check a leader-exclusive commit against the current epoch and generation. -/
def validate (snapshot : CoordinationSnapshot) (grant : LeaseGrant) (nowUnixMs : Nat) :
    Except CoordinationError Unit := do
  require (snapshot.storeId = grant.storeId) .storeMismatch
  require (snapshot.storeGeneration = grant.storeGeneration) .generationChanged
  require (¬(snapshot.ownerId ≠ some grant.ownerId ∨ snapshot.fencingToken ≠ grant.fencingToken ∨
    snapshot.kind ≠ grant.kind ∨ ¬snapshot.isActive nowUnixMs)) .staleFence

/-- A grant validates exactly when it names what the snapshot holds and the lease is active. -/
theorem validate_eq_ok {snapshot : CoordinationSnapshot} :
    snapshot.validate grant nowUnixMs = .ok () ↔
      snapshot.storeId = grant.storeId ∧ snapshot.storeGeneration = grant.storeGeneration ∧
        snapshot.ownerId = some grant.ownerId ∧ snapshot.fencingToken = grant.fencingToken ∧
        snapshot.kind = grant.kind ∧ snapshot.isActive nowUnixMs = true := by
  simp only [validate, bind_eq_ok, require_eq_ok, not_or, not_not, ne_eq]

end CoordinationSnapshot

open CoordinationSnapshot

structure LeaseState where
  snapshot : CoordinationSnapshot

namespace LeaseState

/-- An unowned store at generation one and token zero. -/
def new (storeId : LocalStoreId) : LeaseState where
  snapshot :=
    { storeId
      storeGeneration := .initial
      fencingToken := ⟨0⟩
      ownerId := none
      kind := .syncCoordinator
      expiresAtUnixMs := 0 }

section
variable (state : LeaseState)

/-- The grant for a request, before it is stored. -/
def offer (request : LeaseRequest) : Except CoordinationError LeaseGrant := do
  let fencingToken ← state.snapshot.fencingToken.checkedNext
  let expiresAtUnixMs ← request.expiresAt
  return {
    storeId := state.snapshot.storeId
    ownerId := request.ownerId
    fencingToken
    storeGeneration := state.snapshot.storeGeneration
    kind := request.kind
    expiresAtUnixMs }

def acquire (request : LeaseRequest) : LeaseState × Except CoordinationError LeaseGrant :=
  if state.snapshot.isActive request.nowUnixMs then (state, .error .leaseHeld)
  else
    match state.offer request with
    | .error error => (state, .error error)
    | .ok grant =>
      ({ state with
        snapshot := { state.snapshot with
          ownerId := some grant.ownerId
          fencingToken := grant.fencingToken
          kind := grant.kind
          expiresAtUnixMs := grant.expiresAtUnixMs } }, .ok grant)

def renew (grant : LeaseGrant) (nowUnixMs ttlMs : Nat) :
    LeaseState × Except CoordinationError LeaseGrant :=
  match state.snapshot.validate grant nowUnixMs with
  | .error error => (state, .error error)
  | .ok () =>
    match (LeaseRequest.mk grant.ownerId grant.kind nowUnixMs ttlMs).expiresAt with
    | .error error => (state, .error error)
    | .ok expiresAtUnixMs =>
      ({ state with snapshot := { state.snapshot with expiresAtUnixMs } },
        .ok { grant with expiresAtUnixMs })

def release (grant : LeaseGrant) (nowUnixMs : Nat) :
    LeaseState × Except CoordinationError Unit :=
  match state.snapshot.validate grant nowUnixMs with
  | .error error => (state, .error error)
  | .ok () =>
    ({ state with snapshot := { state.snapshot with ownerId := none, expiresAtUnixMs := 0 } }, .ok ())

def advanceGeneration (grant : LeaseGrant) (nowUnixMs : Nat) :
    LeaseState × Except CoordinationError LocalStoreGeneration :=
  match state.snapshot.validate grant nowUnixMs with
  | .error error => (state, .error error)
  | .ok () =>
    if grant.kind ≠ .maintenance then (state, .error .maintenanceRequired)
    else
      match state.snapshot.storeGeneration.checkedNext with
      | .error error => (state, .error error)
      | .ok generation =>
        ({ state with snapshot := { state.snapshot with storeGeneration := generation } }, .ok generation)

end

end LeaseState

/-- One call on a lease state. Grants and timestamps are whatever the caller presents. -/
inductive LeaseAction where
  | acquire (request : LeaseRequest)
  | renew (grant : LeaseGrant) (nowUnixMs ttlMs : Nat)
  | release (grant : LeaseGrant) (nowUnixMs : Nat)
  | advanceGeneration (grant : LeaseGrant) (nowUnixMs : Nat)

namespace LeaseState

section
variable (state : LeaseState)

/-- The state after a call, and whether the call succeeded. -/
def perform : LeaseAction → LeaseState × Except CoordinationError Unit
  | .acquire request => ((state.acquire request).1, (state.acquire request).2.map fun _ => ())
  | .renew grant nowUnixMs ttlMs =>
    ((state.renew grant nowUnixMs ttlMs).1, (state.renew grant nowUnixMs ttlMs).2.map fun _ => ())
  | .release grant nowUnixMs => state.release grant nowUnixMs
  | .advanceGeneration grant nowUnixMs =>
    ((state.advanceGeneration grant nowUnixMs).1,
      (state.advanceGeneration grant nowUnixMs).2.map fun _ => ())

def step (action : LeaseAction) : LeaseState := (state.perform action).1

def Succeeds (action : LeaseAction) : Prop := (state.perform action).2 = .ok ()

def acquiredTokens : LeaseAction → List Nat
  | .acquire request =>
    match (state.acquire request).2 with
    | .ok grant => [grant.fencingToken.value]
    | .error _ => []
  | _ => []

end

end LeaseState

/-- What a call can do: the next state and whether the call succeeded. -/
inductive Effect (state : LeaseState) :
    LeaseAction → LeaseState → Except CoordinationError Unit → Prop where
  | refused {error : CoordinationError} (silent : state.acquiredTokens action = []) :
      Effect state action state (.error error)
  | acquired {expiresAtUnixMs : Nat}
      (issued : state.acquiredTokens (.acquire request) = [state.snapshot.fencingToken.value + 1]) :
      Effect state (.acquire request)
        { state with
          snapshot := { state.snapshot with
            ownerId := some request.ownerId
            fencingToken := ⟨state.snapshot.fencingToken.value + 1⟩
            kind := request.kind
            expiresAtUnixMs } } (.ok ())
  | renewed {nowUnixMs ttlMs expiresAtUnixMs : Nat}
      (valid : state.snapshot.validate grant nowUnixMs = .ok ()) :
      Effect state (.renew grant nowUnixMs ttlMs)
        { state with snapshot := { state.snapshot with expiresAtUnixMs } } (.ok ())
  | released {nowUnixMs : Nat}
      (valid : state.snapshot.validate grant nowUnixMs = .ok ()) :
      Effect state (.release grant nowUnixMs)
        { state with snapshot := { state.snapshot with ownerId := none, expiresAtUnixMs := 0 } } (.ok ())
  | advanced {nowUnixMs : Nat} {generation : LocalStoreGeneration}
      (valid : state.snapshot.validate grant nowUnixMs = .ok ()) :
      Effect state (.advanceGeneration grant nowUnixMs)
        { state with snapshot := { state.snapshot with storeGeneration := generation } } (.ok ())

namespace LeaseState
variable {state : LeaseState}

theorem offer_fencingToken (offered : state.offer request = .ok grant) :
    grant.fencingToken = ⟨state.snapshot.fencingToken.value + 1⟩ ∧ grant.ownerId = request.ownerId ∧
      grant.kind = request.kind := by
  simp only [offer, bind_eq_ok_iff] at offered
  obtain ⟨_, next, _, _, made⟩ := offered
  cases made
  refine ⟨?_, rfl, rfl⟩
  unfold FencingToken.checkedNext at next
  split at next
  · rename_i value found
    cases next
    rw [(checkedAdd_eq_some.mp found).1]
  · cases next

section
variable (state : LeaseState)

theorem acquire_effect (request : LeaseRequest) :
    Effect state (.acquire request) (state.step (.acquire request)) (state.perform (.acquire request)).2 := by
  by_cases held : state.snapshot.isActive request.nowUnixMs = true
  · have failed : state.acquire request = (state, .error .leaseHeld) := by simp [acquire, held]
    simp only [step, perform, failed]
    exact .refused (by simp [acquiredTokens, failed])
  · cases offered : state.offer request with
    | error error =>
      have failed : state.acquire request = (state, .error error) := by simp [acquire, held, offered]
      simp only [step, perform, failed]
      exact .refused (by simp [acquiredTokens, failed])
    | ok _ =>
      obtain ⟨token, owner, kind⟩ := offer_fencingToken offered
      have issued : state.acquiredTokens (.acquire request) = [state.snapshot.fencingToken.value + 1] := by
        simp [acquiredTokens, acquire, held, offered, token]
      simp only [step, perform, acquire, held, offered, token, owner, kind]
      exact .acquired issued

theorem renew_effect (grant : LeaseGrant) (nowUnixMs ttlMs : Nat) :
    Effect state (.renew grant nowUnixMs ttlMs) (state.step (.renew grant nowUnixMs ttlMs))
      (state.perform (.renew grant nowUnixMs ttlMs)).2 := by
  simp only [step, perform, renew]
  cases valid : state.snapshot.validate grant nowUnixMs with
  | error error => exact .refused rfl
  | ok _ =>
    cases deadline : (LeaseRequest.mk grant.ownerId grant.kind nowUnixMs ttlMs).expiresAt with
    | error _ => exact .refused rfl
    | ok _ => exact .renewed valid

theorem advanceGeneration_effect (grant : LeaseGrant) (nowUnixMs : Nat) :
    Effect state (.advanceGeneration grant nowUnixMs) (state.step (.advanceGeneration grant nowUnixMs))
      (state.perform (.advanceGeneration grant nowUnixMs)).2 := by
  simp only [step, perform, advanceGeneration]
  cases valid : state.snapshot.validate grant nowUnixMs with
  | error error => exact .refused rfl
  | ok _ =>
    by_cases maintenance : grant.kind = .maintenance
    · simp only [maintenance, ne_eq, not_true_eq_false, if_false]
      cases next : state.snapshot.storeGeneration.checkedNext with
      | error _ => exact .refused rfl
      | ok _ => exact .advanced valid
    · simp only [maintenance, ne_eq, not_false_eq_true, if_true]
      exact .refused rfl

theorem step_effect (action : LeaseAction) :
    Effect state action (state.step action) (state.perform action).2 := by
  cases action with
  | acquire request => exact state.acquire_effect request
  | renew grant nowUnixMs ttlMs => exact state.renew_effect grant nowUnixMs ttlMs
  | release grant nowUnixMs =>
    simp only [step, perform, release]
    cases valid : state.snapshot.validate grant nowUnixMs with
    | error _ => exact .refused rfl
    | ok _ => exact .released valid
  | advanceGeneration grant nowUnixMs => exact state.advanceGeneration_effect grant nowUnixMs

/-- No owner can hold the token any more. -/
def Retired (token : FencingToken) : Prop :=
  token.value < state.snapshot.fencingToken.value ∨
    token = state.snapshot.fencingToken ∧ state.snapshot.ownerId = none

/-- The call supersedes the token by acquiring a larger one, or releases it. -/
def Retires (token : FencingToken) (action : LeaseAction) : Prop :=
  (∃ request grant, action = .acquire request ∧ (state.acquire request).2 = .ok grant ∧
      token.value < grant.fencingToken.value) ∨
    ∃ grant nowUnixMs, action = .release grant nowUnixMs ∧ (state.release grant nowUnixMs).2 = .ok () ∧
      token = grant.fencingToken

end

theorem Retired.not_validates {token : FencingToken} (retired : state.Retired token)
    (named : grant.fencingToken = token) (nowUnixMs : Nat) :
    state.snapshot.validate grant nowUnixMs ≠ .ok () := by
  intro valid
  obtain ⟨_, _, owner, current, _, _⟩ := validate_eq_ok.mp valid
  rcases retired with below | ⟨_, unowned⟩
  · rw [← named, ← current] at below
    exact lt_irrefl _ below
  · rw [unowned] at owner
    cases owner

end LeaseState

namespace Effect
section
variable (effect : Effect state action next result)
include effect

theorem retired (before : state.Retired token) : next.Retired token := by
  cases effect with
  | acquired =>
    rcases before with below | ⟨rfl, _⟩
    · exact .inl (Nat.lt_succ_of_lt below)
    · exact .inl (Nat.lt_succ_self _)
  | released => exact before.imp_right fun held => ⟨held.1, rfl⟩
  | _ => exact before

theorem fencingToken_le : state.snapshot.fencingToken.value ≤ next.snapshot.fencingToken.value := by
  cases effect with
  | acquired => exact Nat.le_succ _
  | _ => exact le_refl _

theorem acquiredTokens : ∀ token ∈ state.acquiredTokens action,
      state.snapshot.fencingToken.value < token ∧ token = next.snapshot.fencingToken.value := by
  cases effect with
  | refused silent => simp [silent]
  | acquired issued => simp [issued]
  | _ => simp [LeaseState.acquiredTokens]

end

end Effect

namespace LeaseState
variable {state : LeaseState}

theorem step_retires (retires : state.Retires token action) : (state.step action).Retired token := by
  have effect := state.step_effect action
  rcases retires with ⟨request, grant, rfl, acquired, below⟩ | ⟨grant, nowUnixMs, rfl, released, rfl⟩
  · have issued : grant.fencingToken.value ∈ state.acquiredTokens (.acquire request) := by
      simp [acquiredTokens, acquired]
    exact .inl ((effect.acquiredTokens _ issued).2 ▸ below)
  · rw [show (state.perform (.release grant nowUnixMs)).2 = .ok () from released] at effect
    generalize state.step (.release grant nowUnixMs) = next at effect
    cases effect with
    | released valid =>
      obtain ⟨_, _, _, current, _, _⟩ := validate_eq_ok.mp valid
      exact .inr ⟨current.symm, rfl⟩

theorem Retired.throughout (retired : state.Retired token) (actions : List LeaseAction) :
    Throughout step (fun reached => reached.Retired token) state actions :=
  .of_invariant retired fun reached action => (reached.step_effect action).retired

theorem acquiredTokens_increase (state : LeaseState) (actions : List LeaseAction) :
    (trace step acquiredTokens state actions).Pairwise (· < ·) ∧
      ∀ token ∈ trace step acquiredTokens state actions, state.snapshot.fencingToken.value < token := by
  induction actions generalizing state with
  | nil => exact ⟨.nil, nofun⟩
  | cons action _ ih =>
    have effect := state.step_effect action
    obtain ⟨ordered, later⟩ := ih (state.step action)
    refine ⟨List.pairwise_append.mpr ⟨?_, ordered, ?_⟩, ?_⟩
    · cases action with
      | acquire _ =>
        simp only [acquiredTokens]
        split <;> simp
      | _ => exact .nil
    · intro first issued second following
      rw [(effect.acquiredTokens first issued).2]
      exact later second following
    · intro token member
      rcases List.mem_append.mp member with issued | following
      · exact (effect.acquiredTokens token issued).1
      · exact lt_of_le_of_lt effect.fencingToken_le (later token following)

/-- Two grants that are good in one state, each at a time of its own, name the same lease. -/
def Exclusive (state : LeaseState) : Prop :=
  ∀ first second firstUnixMs secondUnixMs,
    state.snapshot.validate first firstUnixMs = .ok () → state.snapshot.validate second secondUnixMs = .ok () →
      first.ownerId = second.ownerId ∧ first.fencingToken = second.fencingToken ∧
        first.kind = second.kind ∧ first.storeGeneration = second.storeGeneration

theorem exclusive (state : LeaseState) : state.Exclusive := by
  intro _ _ _ _ one other
  obtain ⟨_, generation, owner, token, kind, _⟩ := validate_eq_ok.mp one
  obtain ⟨_, sameGeneration, sameOwner, sameToken, sameKind, _⟩ := validate_eq_ok.mp other
  exact ⟨Option.some.inj (owner.symm.trans sameOwner), token.symm.trans sameToken,
    kind.symm.trans sameKind, generation.symm.trans sameGeneration⟩

theorem step_of_failed (failed : ¬state.Succeeds action) : state.step action = state := by
  have effect := state.step_effect action
  cases outcome : (state.perform action).2 with
  | ok _ => exact absurd outcome failed
  | error _ =>
    rw [outcome] at effect
    generalize state.step action = next at effect
    cases effect with
    | refused => rfl

/-- Mutual exclusion over any calls, grants and timestamps. -/
theorem mutual_exclusion (storeId : LocalStoreId) (actions : List LeaseAction) :
    (trace step acquiredTokens (new storeId) actions).Pairwise (· < ·) ∧
      Throughout step Exclusive (new storeId) actions ∧
      (∀ before action after token, actions = before ++ action :: after →
        (final step (new storeId) before).Retires token action →
          Throughout step
            (fun reached => ∀ grant nowUnixMs, grant.fencingToken = token →
              reached.snapshot.validate grant nowUnixMs ≠ .ok ())
            (final step (new storeId) (before ++ [action])) after) ∧
      Permitted step (fun state action => ¬state.Succeeds action → state.step action = state)
        (new storeId) actions := by
  refine ⟨(acquiredTokens_increase (new storeId) actions).1,
    .of_invariant (exclusive _) fun state action _ => exclusive _, ?_,
    permitted_iff_cut.mpr fun _ _ _ _ => step_of_failed⟩
  intro before action after token _ retires
  have retired : (final step (new storeId) (before ++ [action])).Retired token := by
    rw [final_append]
    exact step_retires retires
  exact (retired.throughout after).mono fun _ held _ nowUnixMs named => held.not_validates named nowUnixMs

end LeaseState

end Aequora.Coordination
