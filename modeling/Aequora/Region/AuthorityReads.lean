import Aequora.Region.SessionReads

/-! Reads that demand the authority. The router sends them there; the guard and the cache ask for no
sequence and serve them like eventual reads. -/

namespace Aequora.Region

open Aequora.Base Aequora.Protocol ReplicaReadGuard RegionalReadRequest RegionalRouter

structure RegionalCacheMetadata where
  authorityId : AuthorityId
  authorityEpoch : AuthorityEpoch
  servedSequence : Sequence
  projectionVersion : Option ProjectionSchemaVersion

def RegionalCacheMetadata.satisfies (cache : RegionalCacheMetadata) (request : RegionalReadRequest) :
    Except RegionError Bool :=
  if cache.authorityId ≠ request.authorityId ∨ cache.authorityEpoch ≠ request.authorityEpoch then .ok false
  else if request.requiredProjection.any fun (_, version) => decide (cache.projectionVersion ≠ some version) then
    .ok false
  else do
    let required ← request.requiredSequence
    return required.all fun minimum => decide (minimum ≤ cache.servedSequence)

/-- The same read, content with an eventual answer. -/
def RegionalReadRequest.eventually (request : RegionalReadRequest) : RegionalReadRequest :=
  { request with policy := { request.policy with consistency := .eventual } }

/-- The replica is in a mode in which it serves eventual reads only. -/
def ReplicaObservation.Detached (observation : ReplicaObservation) : Prop :=
  observation.mode = .readOnlyStale ∨ observation.mode = .disconnected

theorem validate_authority (authority : request.policy.consistency = .authority) :
    validate observation request = .ok metadata ↔
      ¬observation.Detached ∧ validate observation request.eventually = .ok metadata := by
  have demanded : request.requiredSequence = .ok none := by rw [requiredSequence, authority]
  have strict : request.policy.consistency ≠ .eventual := by simp [authority]
  simp only [validate, check_bind_eq_ok, require_eq_ok, demanded]
  constructor
  · rintro ⟨base, attached, rest⟩
    exact ⟨fun detached => attached ⟨detached, strict⟩, base, fun lax => lax.2 rfl, rest⟩
  · rintro ⟨attached, base, _, rest⟩
    exact ⟨base, fun detached => attached detached.1, rest⟩

def exampleCache (authorityEpoch : AuthorityEpoch) : RegionalCacheMetadata := ⟨⟨1⟩, authorityEpoch, 3, none⟩

end Aequora.Region
