import Aequora.Base.Run
import Aequora.Region.Router
import Mathlib.Data.List.Chain

/-! The directory of tenant authorities. It keeps the last assignment of a tenant only, so an epoch is
compared with that of the same authority unless the tenant was elsewhere in between. -/

namespace Aequora.Region

open Std Aequora.Base Aequora.Protocol List Run

inductive RegionalPlacementKind where
  | authority | replica | projection | snapshot | blob | cache | backup | encryptionKey

structure ResidencyPolicy where
  allowedRegions : Finset RegionId
  authorityRegion : RegionId
  (replicaRegions keyRegions : Finset RegionId)

namespace ResidencyPolicy

section
variable (policy : ResidencyPolicy)

def validate : Except RegionError Unit :=
  require (¬(policy.allowedRegions = ∅ ∨ policy.authorityRegion ∉ policy.allowedRegions ∨
    ¬policy.replicaRegions ⊆ policy.allowedRegions ∨ ¬policy.keyRegions ⊆ policy.allowedRegions)) .residencyViolation

def declares (region : RegionId) : RegionalPlacementKind → Bool
  | .authority => region == policy.authorityRegion
  | .replica | .projection => region ∈ policy.replicaRegions
  | .encryptionKey => region ∈ policy.keyRegions
  | .snapshot | .blob | .cache | .backup => true

def verifyPlacement (kind : RegionalPlacementKind) (region : RegionId) :
    Except RegionError Unit := do
  policy.validate
  require (region ∈ policy.allowedRegions ∧ policy.declares region kind) .residencyViolation

end

end ResidencyPolicy

structure TenantAuthorityAssignment where
  tenantId : TenantId
  authorityId : AuthorityId
  authorityEpoch : AuthorityEpoch
  authorityRegion : RegionId
  directoryGeneration : Nat
  residency : ResidencyPolicy

inductive AssignmentTrust where
  | verified | unverified
deriving DecidableEq

abbrev InstallCall := TenantAuthorityAssignment × AssignmentTrust

structure TenantAuthorityDirectory where
  assignments : ExtTreeMap TenantId TenantAuthorityAssignment

/-- A discovery record with the region it was found in. -/
structure RegionalLocation extends AuthorityLocation where
  regionId : RegionId

namespace TenantAuthorityDirectory

/-- The checks against the current assignment of the tenant. -/
def checkRollback (assignment : TenantAuthorityAssignment) :
    Option TenantAuthorityAssignment → Except RegionError Unit
  | none => .ok ()
  | some current => do
    require (¬assignment.directoryGeneration ≤ current.directoryGeneration) .directoryRollback
    require (¬(assignment.authorityId = current.authorityId ∧ assignment.authorityEpoch < current.authorityEpoch))
      (.epochRollback current.authorityEpoch assignment.authorityEpoch)

section
variable (directory : TenantAuthorityDirectory)

section
variable (assignment : TenantAuthorityAssignment) (trust : AssignmentTrust)

def checkInstall : Except RegionError Unit := do
  require (trust = .verified) .untrustedDirectoryAssignment
  assignment.residency.validate
  assignment.residency.verifyPlacement .authority assignment.authorityRegion
  checkRollback assignment directory.assignments[assignment.tenantId]?

def install :
    Except RegionError Unit × TenantAuthorityDirectory :=
  match directory.checkInstall assignment trust with
  | .ok () => (.ok (), { assignments := directory.assignments.insert assignment.tenantId assignment })
  | .error failure => (.error failure, directory)

end

def resolve (tenantId : TenantId) : Option TenantAuthorityAssignment :=
  directory.assignments[tenantId]?

def routeWrite (tenantId : TenantId) (location : RegionalLocation)
    (role : RegionalRole) : Except RegionError RegionId :=
  match directory.resolve tenantId with
  | none => .error .tenantAssignmentMissing
  | some assignment => do
    require (role = .authorityWriter) .notAuthorityWriter
    require (¬(location.authorityId ≠ assignment.authorityId ∨ location.authorityEpoch ≠ assignment.authorityEpoch ∨
      location.regionId ≠ assignment.authorityRegion)) .staleControlPlane
    assignment.residency.verifyPlacement .authority location.regionId
    return location.regionId

def step (call : InstallCall) : TenantAuthorityDirectory :=
  (directory.install call.1 call.2).2

end

def installs (tenantId : TenantId) (directory : TenantAuthorityDirectory) (call : InstallCall) :
    List TenantAuthorityAssignment :=
  if call.1.tenantId = tenantId ∧ (directory.install call.1 call.2).1.isOk then [call.1] else []

/-- The assignments of a tenant that a sequence of calls installs, in order. -/
def installed (tenantId : TenantId) (calls : List InstallCall) : List TenantAuthorityAssignment :=
  trace step (installs tenantId) { assignments := ∅ } calls

end TenantAuthorityDirectory

namespace TenantAuthorityAssignment

/-- The epochs of one authority do not decrease. -/
def KeepsEpoch (earlier later : TenantAuthorityAssignment) : Prop :=
  earlier.authorityId = later.authorityId → earlier.authorityEpoch ≤ later.authorityEpoch

/-- What is checked of an assignment against the one before it. -/
structure Follows (current next : TenantAuthorityAssignment) : Prop where
  generation : current.directoryGeneration < next.directoryGeneration
  epoch : current.KeepsEpoch next

/-- A tenant that returns to an authority from another one finds no earlier epoch there. -/
def ReturnsForward (assignments : List TenantAuthorityAssignment) : Prop :=
  ∀ before next, before ++ [next] <+: assignments → (∀ last ∈ before.getLast?, last.authorityId ≠ next.authorityId) →
    ∀ earlier ∈ before, earlier.KeepsEpoch next

theorem keepsEpoch_iff (chained : assignments.IsChain Follows) :
    assignments.Pairwise KeepsEpoch ↔ ReturnsForward assignments := by
  constructor
  · intro kept before next first _ earlier listed
    have pairs := kept.sublist first.sublist
    exact (pairwise_append.mp pairs).2.2 earlier listed next (.head _)
  · intro returns
    induction assignments using reverseRecOn with
    | nil => exact .nil
    | append_singleton before next ih =>
      obtain ⟨earlierChain, _, link⟩ := isChain_append.mp chained
      have kept := ih earlierChain fun shorter other first =>
        returns shorter other (first.trans (prefix_append _ _))
      refine pairwise_append.mpr ⟨kept, pairwise_singleton _ _, fun earlier listed _ single => ?_⟩
      cases mem_singleton.mp single
      cases ended : before.getLast? with
      | none => simp [getLast?_eq_none_iff.mp ended] at listed
      | some last =>
        by_cases same : last.authorityId = next.authorityId
        · -- Without a change of authority the last assignment passes the epochs on.
          have checked : last.KeepsEpoch next := (link last ended next rfl).epoch
          obtain ⟨shorter, rfl⟩ := getLast?_eq_some_iff.mp ended
          intro named
          rcases mem_append.mp listed with inside | single
          · have passed := (pairwise_append.mp kept).2.2 earlier inside last (.head _)
            exact (passed (named.trans same.symm)).trans (checked same)
          · cases mem_singleton.mp single
            exact checked named
        · refine returns before next (prefix_refl _) (fun other held => ?_) earlier listed
          cases ended.symm.trans held
          exact same

end TenantAuthorityAssignment

namespace TenantAuthorityDirectory
open TenantAuthorityAssignment

theorem checkRollback_eq_ok :
    checkRollback assignment current = .ok () ↔ ∀ last ∈ current, last.Follows assignment := by
  cases current with
  | none => simp [checkRollback]
  | some last =>
    simp only [checkRollback, check_bind_eq_ok, require_eq_ok, Option.mem_some_iff, forall_eq']
    constructor
    · rintro ⟨newer, forward⟩
      exact ⟨Nat.not_le.mp newer, fun same => Nat.not_lt.mp fun lower => forward ⟨same.symm, lower⟩⟩
    · rintro ⟨newer, forward⟩
      exact ⟨Nat.not_le.mpr newer, fun rolled => Nat.not_lt.mpr (forward rolled.1.symm) rolled.2⟩

theorem step_cases (directory : TenantAuthorityDirectory) (call : InstallCall) :
    (installs tenant directory call = [call.1] ∧ (directory.step call).assignments[tenant]? = some call.1 ∧
        ∀ last ∈ directory.assignments[tenant]?, last.Follows call.1) ∨
      installs tenant directory call = [] ∧
        (directory.step call).assignments[tenant]? = directory.assignments[tenant]? := by
  unfold installs step install
  cases checked : directory.checkInstall call.1 call.2 with
  | error _ => simp [Except.isOk, Except.toBool]
  | ok done =>
    cases done
    dsimp only
    rw [lookup_insert]
    by_cases same : call.1.tenantId = tenant
    · simp only [checkInstall, check_bind_eq_ok, checkRollback_eq_ok] at checked
      exact .inl ⟨if_pos ⟨same, rfl⟩, if_pos same, same ▸ checked.2.2.2⟩
    · exact .inr ⟨if_neg fun installed => same installed.1, if_neg same⟩

theorem installed_chain (directory : TenantAuthorityDirectory) (calls : List InstallCall) :
    (directory.assignments[tenant]?.toList ++ trace step (installs tenant) directory calls).IsChain Follows ∧
      (final step directory calls).assignments[tenant]? =
        (directory.assignments[tenant]?.toList ++ trace step (installs tenant) directory calls).getLast? := by
  induction calls generalizing directory with
  | nil =>
    rw [trace, final_nil, append_nil]
    cases directory.assignments[tenant]? <;> simp
  | cons call _ ih =>
    rw [trace, final_cons]
    obtain ⟨chained, ended⟩ := ih (directory.step call)
    rcases step_cases directory call with ⟨installing, now, follows⟩ | ⟨passed, kept⟩
    · rw [now, Option.toList_some] at chained ended
      rw [installing, ended]
      constructor
      · refine isChain_append.mpr ⟨?_, chained, ?_⟩
        · cases directory.assignments[tenant]? <;> simp
        · intro last held next first
          cases first
          cases current : directory.assignments[tenant]? with
          | none => simp [current] at held
          | some _ =>
            rw [current] at held follows
            exact follows last held
      · exact (getLast?_append_of_ne_nil _ (by simp)).symm
    · rw [kept] at chained ended
      rw [passed]
      exact ⟨chained, ended⟩

/-- Generations grow, failed calls change nothing, and writes go to the last assignment. The epochs of
one authority never decrease exactly when a tenant that returns to it finds no earlier epoch. -/
theorem assignments_forward_iff (calls : List InstallCall) (tenantId : TenantId) :
    ((installed tenantId calls).map directoryGeneration).Pairwise (· < ·) ∧
    ((installed tenantId calls).Pairwise KeepsEpoch ↔ ReturnsForward (installed tenantId calls)) ∧
    (∀ (directory : TenantAuthorityDirectory) assignment trust failure,
      (directory.install assignment trust).1 = .error failure → (directory.install assignment trust).2 = directory) ∧
    ∀ location role region,
      (final step { assignments := ∅ } calls).routeWrite tenantId location role = .ok region →
      ∃ last ∈ (installed tenantId calls).getLast?, location.authorityId = last.authorityId ∧
        location.authorityEpoch = last.authorityEpoch ∧ location.regionId = last.authorityRegion := by
  obtain ⟨chained, ended⟩ := @installed_chain tenantId { assignments := ∅ } calls
  rw [ExtTreeMap.getElem?_empty, Option.toList_none, nil_append] at chained ended
  refine ⟨?_, keepsEpoch_iff chained, ?_, ?_⟩
  · exact isChain_iff_pairwise.mp (isChain_map _ |>.mpr (chained.imp fun _ _ follows => follows.generation))
  · intro directory assignment trust _ failed
    unfold install at failed ⊢
    cases checked : directory.checkInstall assignment trust with
    | error _ => rfl
    | ok _ => simp [checked] at failed
  · intro location _ _ routed
    unfold routeWrite resolve at routed
    rw [ended] at routed
    split at routed
    · cases routed
    · next last found =>
      simp only [check_bind_eq_ok, require_eq_ok, not_or, ne_eq, not_not] at routed
      exact ⟨last, found, routed.2.1⟩

def exampleAssignment (authorityId : AuthorityId) (authorityEpoch : AuthorityEpoch) (directoryGeneration : Nat) :
    InstallCall :=
  ({ tenantId := ⟨1⟩
     authorityId
     authorityEpoch
     authorityRegion := 1
     directoryGeneration
     residency := ⟨{1}, 1, ∅, ∅⟩ }, .verified)

/-- After a stay at another authority the tenant returns to an earlier epoch of the first one. -/
theorem assignments_forward_returned :
    (installed ⟨1⟩ [exampleAssignment ⟨1⟩ 5 1, exampleAssignment ⟨2⟩ 1 2, exampleAssignment ⟨1⟩ 3 3]).map
        (fun assignment => (assignment.authorityId, assignment.authorityEpoch)) =
      [(⟨1⟩, 5), (⟨2⟩, 1), (⟨1⟩, 3)] := by
  decide

end TenantAuthorityDirectory

end Aequora.Region
