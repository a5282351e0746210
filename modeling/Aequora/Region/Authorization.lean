import Aequora.Region.SessionReads

/-! How recent the authorization data of a routed read is. The guard demands it of a replica that
serves the read as asked, the downgrade does not. -/

namespace Aequora.Region

open Std Aequora.Base Aequora.Protocol

def RegionalReadRequest.NeedsAuthorization (request : RegionalReadRequest) : Prop :=
  request.policy.authorizationSensitive ∨ request.minimumAuthorizationSequence.isSome

/-- The replica's authorization data has reached the given minimum, or else the sequence that the
read demands, or else what the replica has seen of the authority. -/
def ReplicaObservation.Authorizes (observation : ReplicaObservation) (request : RegionalReadRequest) : Prop :=
  ∃ available ∈ observation.authorizationSequence,
    (request.minimumAuthorizationSequence.or request.requiredSequence.toOption.join).getD
      observation.observedAuthoritySequence ≤ available

theorem ReplicaReadGuard.authorizes
    (needed : request.NeedsAuthorization) (accepted : validate observation request = .ok metadata) :
    observation.Authorizes request := by
  simp only [validate, bind_eq_ok_iff] at accepted
  obtain ⟨_, _, _, _, _, demanded, _, _, _, authorized, _⟩ := accepted
  rw [validateAuthorization, if_pos (show _ ∨ _ from needed), require_eq_ok, Option.any_eq_true] at authorized
  obtain ⟨available, held, enough⟩ := authorized
  refine ⟨available, held, ?_⟩
  rw [demanded]
  exact of_decide_eq_true enough

namespace RegionalRouter
variable {router : RegionalRouter}

theorem route_downgraded (routed : router.route request = .ok decision) (downgraded : decision.downgraded = true) :
    ∃ replica, router.best request (mayDowngrade request) = some replica ∧
      decision.target = .regionalReplica replica.replicaId := by
  -- The authority's decisions and the exact choice say that they are no downgrade.
  have authority : ∀ {consistency wait}, router.authorityDecision consistency false wait ≠ .ok decision := by
    intro _ _ decided
    simp only [authorityDecision, check_bind_eq_ok] at decided
    cases decided.2
    cases downgraded
  simp only [route, bind_eq_ok_iff] at routed
  obtain ⟨_, _, _, _, _, _, routed⟩ := routed
  split at routed
  · exact absurd routed authority
  · split at routed
    · cases routed
      cases downgraded
    · split at routed
      · exact absurd routed authority
      · unfold downgrade at routed
        split at routed
        · next replica chosen =>
          cases routed
          exact ⟨replica, (Option.ite_none_right_eq_some.mp chosen).2, rfl⟩
        · cases routed

/-- A sensitive read that no replica is new enough for, and that may become an eventual one. -/
def exampleSensitive : RegionalReadRequest :=
  { exampleRead (.atLeast 20) none with
    policy :=
      { consistency := .atLeast 20
        stalenessBudget := .none
        fallback := .allowEventual
        allowAuthorityFallback := false
        authorizationSensitive := true } }

def exampleAuthorized (authorizationSequence : Option Sequence) : Except RegionError RegionalRouter := do
  (← exampleRouter 3).observe { exampleReplica 3 with authorizationSequence }

end RegionalRouter

end Aequora.Region
