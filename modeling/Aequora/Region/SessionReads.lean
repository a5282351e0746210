import Aequora.Base.Run
import Aequora.Region.Router

/-! Which data a regional read is served from. The guard only requires that a projection is not
ahead of the replica, so a read is as fresh as it claims exactly when the projection has applied all
that the replica has. -/

namespace Aequora.Region

open Std Aequora.Base Aequora.Protocol ReplicaReadGuard Run

/-- A read that demands a sequence, either itself or through its session. -/
def RegionalReadRequest.Demands (request : RegionalReadRequest) (minimum : Sequence) : Prop :=
  request.policy.consistency = .atLeast minimum ∨
    request.policy.consistency = .session ∧ ∃ session ∈ request.session, session.minSequence = minimum

namespace ReplicaObservation

section
variable (observation : ReplicaObservation) (request : RegionalReadRequest)

/-- The data a read is served from: the projection it names, otherwise the replica itself. -/
def servedFrom : ReplicaWatermark :=
  match request.requiredProjection, observation.projection with
  | some _, some projection =>
    { authorityId := projection.authorityId
      authorityEpoch := projection.authorityEpoch
      sequence := projection.sequence }
  | _, _ => observation.watermark

/-- The data has applied everything the replica has. -/
def CaughtUp : Prop :=
  (observation.servedFrom request).sequence = observation.watermark.sequence

/-- The data is on the demanded timeline, as new as demanded and as new as the response claims. -/
structure Honours (minimum : Sequence)
    (metadata : ReadResponseMetadata) : Prop where
  authorityId : (observation.servedFrom request).authorityId = request.authorityId
  authorityEpoch : (observation.servedFrom request).authorityEpoch = request.authorityEpoch
  fresh : minimum ≤ (observation.servedFrom request).sequence
  served : metadata.servedSequence ≤ (observation.servedFrom request).sequence

end

end ReplicaObservation

section Guard
variable {request : RegionalReadRequest}

/-- What the guard leaves open about the data it lets serve. -/
structure Serves (observation : ReplicaObservation) (request : RegionalReadRequest) : Prop where
  authorityId : (observation.servedFrom request).authorityId = request.authorityId
  authorityEpoch : (observation.servedFrom request).authorityEpoch = request.authorityEpoch
  bounded : (observation.servedFrom request).sequence ≤ observation.watermark.sequence

theorem serves_of_projection (timeline : observation.watermark.authorityId = request.authorityId)
    (epoch : observation.watermark.authorityEpoch = request.authorityEpoch)
    (accepted : validateProjection observation request = .ok ()) : Serves observation request := by
  unfold validateProjection at accepted
  split at accepted
  · next unnamed =>
    have itself : observation.servedFrom request = observation.watermark := by
      rw [ReplicaObservation.servedFrom, unnamed]
    exact ⟨itself ▸ timeline, itself ▸ epoch, by rw [itself]⟩
  · next named =>
    split at accepted
    · cases accepted
    · next projection held =>
      have compatible := require_eq_ok.mp accepted
      simp only [not_or, ne_eq, not_not, Nat.not_lt] at compatible
      obtain ⟨_, _, sameAuthority, sameEpoch, bounded⟩ := compatible
      have derived : observation.servedFrom request =
          ⟨projection.authorityId, projection.authorityEpoch, projection.sequence⟩ := by
        rw [ReplicaObservation.servedFrom, named, held]
      exact ⟨by rw [derived]; exact sameAuthority, by rw [derived]; exact sameEpoch,
        by rw [derived]; exact bounded⟩

theorem serves_of_base (accepted : validateReplicaBase observation request = .ok ()) :
    Serves observation request ∧ observation.watermark.authorityId = request.authorityId ∧
      observation.watermark.authorityEpoch = request.authorityEpoch := by
  simp only [validateReplicaBase, check_bind_eq_ok, require_eq_ok] at accepted
  obtain ⟨_, _, _, _, authorityId, authorityEpoch, projection⟩ := accepted
  exact ⟨serves_of_projection authorityId authorityEpoch projection, authorityId, authorityEpoch⟩

/-- Everything a passed guard says about sequences and timelines. -/
structure Guarded (observation : ReplicaObservation) (request : RegionalReadRequest)
    (metadata : ReadResponseMetadata) : Prop where
  serves : Serves observation request
  required : ∃ required, request.requiredSequence = .ok required ∧
    ∀ minimum ∈ required, minimum ≤ observation.watermark.sequence
  authorityId : metadata.authorityId = request.authorityId
  authorityEpoch : metadata.authorityEpoch = request.authorityEpoch
  servedSequence : metadata.servedSequence = observation.watermark.sequence

theorem ReplicaReadGuard.validateSequence_eq_ok : validateSequence observation required = .ok () ↔
      ∀ minimum ∈ required, minimum ≤ observation.watermark.sequence := by
  cases required with
  | none => simp [validateSequence]
  | some _ => simp [validateSequence, require_eq_ok]

theorem ReplicaReadGuard.guarded (accepted : validate observation request = .ok metadata) :
    Guarded observation request metadata := by
  simp only [validate, bind_eq_ok_iff] at accepted
  obtain ⟨_, base, _, _, required, demanded, _, sequence, _, _, _, _, built⟩ := accepted
  obtain ⟨serves, authorityId, authorityEpoch⟩ := serves_of_base base
  cases built
  exact ⟨serves, ⟨required, demanded, validateSequence_eq_ok.mp sequence⟩, authorityId, authorityEpoch, rfl⟩

theorem RegionalReadRequest.Demands.requiredSequence
    (demands : request.Demands minimum) (accepted : request.requiredSequence = .ok required) :
    required = some minimum := by
  unfold RegionalReadRequest.requiredSequence at accepted
  rcases demands with itself | ⟨session, _, held, rfl⟩
  · rw [itself] at accepted
    cases accepted
    rfl
  · rw [session, held] at accepted
    simp only [check_bind_eq_ok, require_eq_ok] at accepted
    cases accepted.2.2
    rfl

theorem Guarded.honours_iff (guarded : Guarded observation request metadata) (demands : request.Demands minimum) :
    observation.Honours request minimum metadata ↔ observation.CaughtUp request := by
  obtain ⟨required, accepted, applied⟩ := guarded.required
  have enough := applied minimum (demands.requiredSequence accepted)
  constructor
  · intro honoured
    have claimed := honoured.served
    rw [guarded.servedSequence] at claimed
    exact Nat.le_antisymm guarded.serves.bounded claimed
  · intro caught
    have same : (observation.servedFrom request).sequence = observation.watermark.sequence := caught
    exact ⟨guarded.serves.authorityId, guarded.serves.authorityEpoch, same ▸ enough,
      by rw [same, guarded.servedSequence]⟩

end Guard

namespace RegionalRouter
variable {router : RegionalRouter}

theorem best_eligible (chosen : router.best request eligible = some observation) :
    router.replicas[observation.replicaId]? = some observation ∧ eligible observation = true := by
  have listed := List.mem_of_head? chosen
  rw [sortReplicas, List.mem_insertionSort, List.mem_filter] at listed
  obtain ⟨replicaId, found⟩ := mem_values.mp listed.1
  rw [router.keyed replicaId observation found]
  exact ⟨found, listed.2⟩

theorem authorityDecision_target (decided : router.authorityDecision consistency downgraded wait = .ok decision) :
    decision.target = .authority := by
  simp only [authorityDecision, check_bind_eq_ok] at decided
  cases decided.2
  rfl

theorem downgrade_downgraded
    (decided : router.downgrade request required = .ok decision) : decision.downgraded = true := by
  unfold downgrade at decided
  split at decided
  · cases decided
    rfl
  · cases decided

/-- A replica is routed to without a downgrade only if it passes the guard for the request. -/
theorem route_guarded
    (routed : router.route request = .ok decision) (replica : decision.target = .regionalReplica replicaId)
    (undowngraded : decision.downgraded = false) :
    ∃ observation metadata, router.replicas[replicaId]? = some observation ∧
      validate observation request = .ok metadata := by
  simp only [route, bind_eq_ok_iff] at routed
  obtain ⟨_, _, _, _, _, _, routed⟩ := routed
  split at routed
  · cases (authorityDecision_target routed).symm.trans replica
  · split at routed
    · next observation chosen =>
      obtain ⟨found, passes⟩ := best_eligible chosen
      cases routed
      cases replica
      cases accepted : validate observation request with
      | error _ =>
        rw [accepted] at passes
        cases passes
      | ok metadata => exact ⟨observation, metadata, found, accepted⟩
    · split at routed
      · cases (authorityDecision_target routed).symm.trans replica
      · cases undowngraded.symm.trans (downgrade_downgraded routed)

end RegionalRouter

/-! ## Sessions -/

/-- One thing that happens in a session: a read at a replica, a read through the router, or
metadata of another response, such as one of the authority. -/
inductive SessionStep where
  | read (observation : ReplicaObservation) (request : RegionalReadRequest)
  | routed (router : RegionalRouter) (request : RegionalReadRequest)
  | observe (authorityId : AuthorityId) (authorityEpoch : AuthorityEpoch) (sequence : Sequence)

structure Served where
  observation : ReplicaObservation
  request : RegionalReadRequest
  metadata : ReadResponseMetadata

def Served.data (served : Served) : ReplicaWatermark := served.observation.servedFrom served.request

namespace SessionWatermark

section
variable (session : SessionWatermark)

def asks (request : RegionalReadRequest) : RegionalReadRequest :=
  { request with
    policy := { request.policy with consistency := .session }
    session := some session }

/-- The replica a step sends its read to. A downgraded read is not a session read any more. -/
def sends : SessionStep → Option (ReplicaObservation × RegionalReadRequest)
  | .read observation request => some (observation, session.asks request)
  | .routed router request =>
    match router.route (session.asks request) with
    | .ok decision =>
      match decision.target, decision.downgraded with
      | .regionalReplica replicaId, false =>
        (router.replicas[replicaId]?).map fun observation => (observation, session.asks request)
      | _, _ => none
    | .error _ => none
  | .observe .. => none

/-- What a step serves, once the guard of the replica lets it. -/
def serves (action : SessionStep) : Option Served :=
  (session.sends action).bind fun (observation, request) =>
    match validate observation request with
    | .ok metadata => some { observation, request, metadata }
    | .error _ => none

/-- The session after an observation, or as it was if the observation is refused. -/
def absorb (authorityId : AuthorityId) (authorityEpoch : AuthorityEpoch)
    (sequence : Sequence) : SessionWatermark :=
  match session.observe authorityId authorityEpoch sequence with
  | .ok next => next
  | .error _ => session

def step (action : SessionStep) : SessionWatermark :=
  match session.serves action, action with
  | some served, _ =>
    session.absorb served.metadata.authorityId served.metadata.authorityEpoch served.metadata.servedSequence
  | none, .observe authorityId authorityEpoch sequence => session.absorb authorityId authorityEpoch sequence
  | none, _ => session

def dataServed (action : SessionStep) : List ReplicaWatermark :=
  (session.serves action).toList.map Served.data

end

/-- Later reads of an epoch are served from data that is at least as new. -/
def NotOlder (earlier later : ReplicaWatermark) : Prop :=
  earlier.authorityEpoch = later.authorityEpoch → earlier.sequence ≤ later.sequence

section
variable (session : SessionWatermark)

def HonoursReads (action : SessionStep) : Prop :=
  ∀ served ∈ session.serves action,
    served.observation.Honours served.request session.minSequence served.metadata

def CaughtUpReads (action : SessionStep) : Prop :=
  ∀ served ∈ session.serves action, served.observation.CaughtUp served.request

/-- The session will ask for data at least this new. -/
def Covers (data : ReplicaWatermark) : Prop :=
  data.authorityEpoch < session.authorityEpoch ∨
    data.authorityEpoch = session.authorityEpoch ∧ data.sequence ≤ session.minSequence

end

variable {session : SessionWatermark}
  {authorityId : AuthorityId} {authorityEpoch : AuthorityEpoch} {sequence : Sequence}

theorem observe_covers (observed : session.observe authorityId authorityEpoch sequence = .ok next)
    (covers : session.Covers data) : next.Covers data := by
  simp only [observe, check_bind_eq_ok, require_eq_ok] at observed
  obtain ⟨_, _, updated⟩ := observed
  cases updated
  split
  · next newer =>
    -- A newer epoch starts over, and everything served so far is of an older one.
    rcases covers with older | ⟨same, _⟩
    · exact .inl (Nat.lt_trans older newer)
    · exact .inl (same ▸ newer)
  · split
    · next raised =>
      rcases covers with older | ⟨same, bounded⟩
      · exact .inl older
      · exact .inr ⟨same, Nat.le_trans bounded (Nat.le_of_lt raised)⟩
    · exact covers

theorem absorb_covers (covers : session.Covers data) :
    (session.absorb authorityId authorityEpoch sequence).Covers data := by
  unfold absorb
  split
  · next observed => exact observe_covers observed covers
  · exact covers

theorem absorb_covers_observed (timeline : authorityId = session.authorityId)
    (epoch : authorityEpoch = session.authorityEpoch) (dataEpoch : data.authorityEpoch = session.authorityEpoch)
    (bounded : data.sequence ≤ sequence) : (session.absorb authorityId authorityEpoch sequence).Covers data := by
  subst timeline epoch
  have observed : session.observe session.authorityId session.authorityEpoch sequence =
      .ok (if session.minSequence < sequence then { session with minSequence := sequence } else session) := by
    simp [observe, require, Bind.bind, Except.bind, pure, Except.pure]
  rw [absorb, observed]
  dsimp only
  split
  · exact .inr ⟨dataEpoch, bounded⟩
  · next kept => exact .inr ⟨dataEpoch, Nat.le_trans bounded (Nat.le_of_not_lt kept)⟩

theorem serves_guarded (served : serves session action = some result) :
    Guarded result.observation result.request result.metadata ∧ ∃ request, result.request = session.asks request := by
  obtain ⟨⟨observation, _⟩, sent, served⟩ := Option.bind_eq_some_iff.mp served
  dsimp only at served
  split at served
  · next metadata accepted =>
    cases served
    refine ⟨guarded accepted, ?_⟩
    cases action with
    | read _ request =>
      cases sent
      exact ⟨request, rfl⟩
    | routed _ request =>
      simp only [sends] at sent
      split at sent
      · split at sent
        · obtain ⟨_, _, pair⟩ := Option.map_eq_some_iff.mp sent
          cases pair
          exact ⟨request, rfl⟩
        · cases sent
      · cases sent
    | observe => cases sent
  · cases served

theorem asks_timeline (accepted : (session.asks request).requiredSequence = .ok required) :
    session.authorityId = request.authorityId ∧ session.authorityEpoch = request.authorityEpoch := by
  obtain ⟨timeline, accepted⟩ := check_bind_eq_ok.mp accepted
  obtain ⟨epoch, _⟩ := check_bind_eq_ok.mp accepted
  exact ⟨require_eq_ok.mp timeline, require_eq_ok.mp epoch⟩

theorem asks_demands (request : RegionalReadRequest) : (session.asks request).Demands session.minSequence :=
  .inr ⟨rfl, session, rfl, rfl⟩

theorem honoursReads_iff : session.HonoursReads action ↔ session.CaughtUpReads action := by
  refine forall₂_congr fun served found => ?_
  obtain ⟨guarded, request, asked⟩ := serves_guarded found
  exact guarded.honours_iff (asked ▸ asks_demands request)

theorem step_covers (covers : session.Covers data) : (session.step action).Covers data := by
  unfold step
  split
  · exact absorb_covers covers
  · exact absorb_covers covers
  · exact covers

theorem step_covers_served (found : session.serves action = some served) :
    (session.step action).Covers served.data := by
  obtain ⟨guarded, request, asked⟩ := serves_guarded found
  obtain ⟨required, accepted, _⟩ := guarded.required
  obtain ⟨authorityId, authorityEpoch⟩ := asks_timeline (asked ▸ accepted)
  have askedAuthority : served.request.authorityId = session.authorityId := by rw [asked]; exact authorityId.symm
  have askedEpoch : served.request.authorityEpoch = session.authorityEpoch := by
    rw [asked]; exact authorityEpoch.symm
  unfold step
  simp only [found]
  apply absorb_covers_observed
  · exact guarded.authorityId.trans askedAuthority
  · exact guarded.authorityEpoch.trans askedEpoch
  · exact guarded.serves.authorityEpoch.trans askedEpoch
  · rw [guarded.servedSequence]
    exact guarded.serves.bounded

theorem covers_notOlder (found : session.serves action = some served)
    (honoured : session.HonoursReads action) (covers : session.Covers data) : NotOlder data served.data := by
  obtain ⟨guarded, _, asked⟩ := serves_guarded found
  obtain ⟨required, accepted, _⟩ := guarded.required
  obtain ⟨_, authorityEpoch⟩ := asks_timeline (asked ▸ accepted)
  intro same
  have current : served.data.authorityEpoch = session.authorityEpoch := by
    rw [authorityEpoch]
    exact guarded.serves.authorityEpoch.trans (by rw [asked]; rfl)
  rcases covers with older | ⟨_, bounded⟩
  · exact absurd (same.trans current) (Nat.ne_of_lt older)
  · exact Nat.le_trans bounded (honoured served found).fresh

/-- What holds of a session that has seen this data. -/
structure Followed (session : SessionWatermark) (seen : List ReplicaWatermark) : Prop where
  ordered : seen.Pairwise NotOlder
  covered : ∀ data ∈ seen, session.Covers data

theorem Followed.step (followed : session.Followed seen) (honoured : session.HonoursReads action) :
    (session.step action).Followed (seen ++ session.dataServed action) := by
  cases found : session.serves action with
  | none =>
    have nothing : session.dataServed action = [] := by simp [dataServed, found]
    rw [nothing, List.append_nil]
    exact ⟨followed.ordered, fun data earlier => step_covers (followed.covered data earlier)⟩
  | some served =>
    have one : session.dataServed action = [served.data] := by simp [dataServed, found]
    rw [one]
    constructor
    · rw [List.pairwise_append]
      refine ⟨followed.ordered, List.pairwise_singleton _ _, fun data earlier later latest => ?_⟩
      cases List.mem_singleton.mp latest
      exact covers_notOlder found honoured (followed.covered data earlier)
    · intro data listed
      rcases List.mem_append.mp listed with earlier | latest
      · exact step_covers (followed.covered data earlier)
      · cases List.mem_singleton.mp latest
        exact step_covers_served found

theorem dataServed_notOlder (honoured : Permitted step HonoursReads session actions) :
    (trace step dataServed session actions).Pairwise NotOlder := by
  have initial : session.Followed [] := ⟨.nil, by simp⟩
  have followed := invariant_with_trace initial
    (fun before action after split followed =>
      followed.step (permitted_iff_cut.mp honoured before action after split))
    actions [] (by simp)
  exact followed.ordered

/-- A read that a guard or an undowngraded route lets a replica serve is as fresh as demanded and
claimed exactly when its data is caught up with the replica; a session honours all its reads, and
never goes back within an epoch, exactly when all of them are served from such data. -/
theorem regionalReads_honoured_iff (session : SessionWatermark) (actions : List SessionStep) :
    (∀ observation request minimum metadata, request.Demands minimum →
      validate observation request = .ok metadata →
        (observation.Honours request minimum metadata ↔ observation.CaughtUp request)) ∧
    (∀ (router : RegionalRouter) request minimum decision replicaId, request.Demands minimum →
      router.route request = .ok decision → decision.target = .regionalReplica replicaId →
      decision.downgraded = false →
        ∃ observation metadata, router.replicas[replicaId]? = some observation ∧
          validate observation request = .ok metadata ∧
          (observation.Honours request minimum metadata ↔ observation.CaughtUp request)) ∧
    (Permitted step HonoursReads session actions ∧
        (trace step dataServed session actions).Pairwise NotOlder ↔
      Permitted step CaughtUpReads session actions) := by
  refine ⟨?_, ?_, ?_, ?_⟩
  · intro observation request minimum metadata demands accepted
    exact (guarded accepted).honours_iff demands
  · intro router _ _ _ _ demands routed replica undowngraded
    obtain ⟨observation, metadata, found, accepted⟩ := router.route_guarded routed replica undowngraded
    exact ⟨observation, metadata, found, accepted, (guarded accepted).honours_iff demands⟩
  · rintro ⟨honoured, _⟩
    exact honoured.mono fun _ _ => honoursReads_iff.mp
  · intro caught
    have honoured := caught.mono fun _ _ => honoursReads_iff.mpr
    exact ⟨honoured, dataServed_notOlder honoured⟩

end SessionWatermark

/-- A replica that has applied ten changes, with a projection that may be behind. -/
def exampleReplica (projected : Sequence) : ReplicaObservation where
  replicaId := ⟨1⟩
  regionId := 1
  role := .readReplica
  watermark := { authorityId := ⟨1⟩, authorityEpoch := 1, sequence := 10 }
  projection := some
    { projectionId := 1, schemaVersion := 1, authorityId := ⟨1⟩, authorityEpoch := 1, sequence := projected }
  authorizationSequence := none
  observedAuthoritySequence := 10
  approximateTimeLag := 0
  health := .healthy
  mode := .healthy
  priority := 0
  loadBasisPoints := 0
  maintenance := false

def exampleRead (consistency : ReadConsistency) (requiredProjection : Option (ProjectionId × ProjectionSchemaVersion)) :
    RegionalReadRequest where
  authorityId := ⟨1⟩
  authorityEpoch := 1
  policy :=
    { consistency
      stalenessBudget := .none
      fallback := .neverDowngrade
      allowAuthorityFallback := true
      authorizationSensitive := false }
  session := none
  regionHint := none
  requiredProjection
  minimumAuthorizationSequence := none

def exampleRouter (projected : Sequence) : Except RegionError RegionalRouter := do
  let router ← RegionalRouter.new { endpoint := "writer", authorityId := ⟨1⟩, authorityEpoch := 1 } true
    { localRegion := 1, replicaWait := 0, allowAuthorityFallback := true }
  router.observe (exampleReplica projected)

def exampleSession : SessionWatermark := { authorityId := ⟨1⟩, authorityEpoch := 1, minSequence := 5 }

def exampleReads (projected : Sequence) : List SessionStep :=
  [.read (exampleReplica projected) (exampleRead .session none),
    .read (exampleReplica projected) (exampleRead .session (some (1, 1)))]

namespace SessionWatermark

/-- A projection that has applied all ten changes serves the session without going back. -/
theorem regionalReads_honoured_caught_up :
    trace step dataServed exampleSession (exampleReads 10) = [⟨⟨1⟩, 1, 10⟩, ⟨⟨1⟩, 1, 10⟩] ∧
      Permitted step HonoursReads exampleSession (exampleReads 10) := by
  refine ⟨rfl, ((regionalReads_honoured_iff exampleSession (exampleReads 10)).2.2.mpr ?_).1⟩
  refine ⟨?_, ?_, trivial⟩
  · rintro served ⟨⟩
    rfl
  · rintro _ ⟨⟩
    rfl

/-- A projection that has applied three changes serves a read that demands five of them, through the
guard and through the router, claims ten, and takes a session back from ten to three. -/
theorem regionalReads_stale_projection : (validate (exampleReplica 3) (exampleRead (.atLeast 5) (some (1, 1)))).map
        ReadResponseMetadata.servedSequence = .ok 10 ∧
      ((exampleReplica 3).servedFrom (exampleRead (.atLeast 5) (some (1, 1)))).sequence = 3 ∧
      ((exampleRouter 3).bind fun router => router.route (exampleRead (.atLeast 5) (some (1, 1)))) =
        .ok { target := .regionalReplica ⟨1⟩
              effectiveConsistency := .atLeast 5
              downgraded := false
              waitBeforeFallback := none } ∧
      trace step dataServed exampleSession (exampleReads 3) = [⟨⟨1⟩, 1, 10⟩, ⟨⟨1⟩, 1, 3⟩] := by
  refine ⟨rfl, rfl, rfl, rfl⟩

end SessionWatermark

end Aequora.Region
