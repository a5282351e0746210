import Aequora.SyncModel.Safety

/-! Failover safety. Two kinds of accepted action can break the failover check: promoting a fenced
instance, and re-bootstrapping a client while one of its possibly sent operations is in flight. -/

namespace Aequora.SyncModel

open Std Aequora.Base ServerModel Finset Run

/-- The clauses of the failover check about the authority alone. -/
structure AuthoritySafe (server : ServerModel) : Prop where
  unfenced : server.authorityInstance ∉ server.fencedInstances
  token : server.fenceToken ≠ 0
  quarantine : ¬(server.forkQuarantined = true ∧ server.writesEnabled = true)
  continuity : ∀ transition, server.lastTransition = some transition →
    (transition.continuityProven = true → transition.oldEpoch = transition.newEpoch) ∧
    (transition.timelineChanged = true → transition.oldEpoch ≠ transition.newEpoch)

/-- No request in flight carries an operation its client holds back as ambiguous. -/
def Model.Withheld (model : Model) : Prop :=
  ∀ clientId client, model.clients[clientId]? = some client →
    ∀ request ∈ model.network.requests, request.client = clientId →
      ∀ operation, request.operation = some operation → operation.id ∉ client.ambiguousOldEpoch

theorem Model.failoverSafe_iff {model : Model} : model.FailoverSafe ↔ AuthoritySafe model.server ∧ model.Withheld :=
  ⟨fun safe => ⟨⟨safe.unfenced, safe.token, safe.quarantine, safe.continuity⟩, safe.withheld⟩,
    fun ⟨authority, withheld⟩ =>
      ⟨authority.unfenced, authority.token, authority.quarantine, authority.continuity, withheld⟩⟩

theorem AuthoritySafe.initial : AuthoritySafe .default :=
  ⟨by decide, by decide, by decide, by simp [ServerModel.default]⟩

theorem AuthoritySafe.congr (safe : AuthoritySafe server) (same : SameAuthority server next) :
    AuthoritySafe next where
  unfenced := by rw [same.authorityInstance, same.fencedInstances]; exact safe.unfenced
  token := by rw [same.fenceToken]; exact safe.token
  quarantine := by rw [same.forkQuarantined, same.writesEnabled]; exact safe.quarantine
  continuity := by rw [same.lastTransition]; exact safe.continuity

def ModelAction.newInstance? : ModelAction → Option UInt8
  | .promoteLossless newInstance => some newInstance
  | .promoteWithDataLoss newInstance _ => some newInstance
  | _ => none

def ModelAction.rebootstraps? : ModelAction → Option ClientId
  | .rebootstrapClient clientId => some clientId
  | _ => none

/-- A promotion may only activate an instance that was never fenced. -/
def Model.PromotesUnfenced (model : Model) (action : ModelAction) : Prop :=
  ∀ newInstance ∈ action.newInstance?, newInstance ∉ model.server.fencedInstances

instance (model : Model) (action : ModelAction) : Decidable (model.PromotesUnfenced action) :=
  inferInstanceAs (Decidable (∀ newInstance ∈ action.newInstance?, _))

/-- The request carries an operation that a snapshot of its client would make ambiguous. -/
def ModelRequest.BecomesAmbiguous (request : ModelRequest) (clientId : ClientId) (client : ClientModel) : Prop :=
  request.client = clientId ∧ ∃ operation ∈ request.operation,
    operation.id ∈ client.possiblySent ∧ ∃ pending ∈ client.outbox, pending.id = operation.id

instance (request : ModelRequest) (clientId : ClientId) (client : ClientModel) :
    Decidable (request.BecomesAmbiguous clientId client) :=
  inferInstanceAs (Decidable (_ ∧ ∃ operation ∈ request.operation, _))

/-- A client may only re-bootstrap when none of its pending, possibly sent operations is in
flight. -/
def Model.RebootstrapsQuietly (model : Model) (action : ModelAction) : Prop :=
  ∀ clientId ∈ action.rebootstraps?, ∀ client ∈ model.clients[clientId]?,
    ∀ request ∈ model.network.requests, ¬request.BecomesAmbiguous clientId client

instance (model : Model) (action : ModelAction) : Decidable (model.RebootstrapsQuietly action) :=
  inferInstanceAs (Decidable (∀ clientId ∈ action.rebootstraps?, ∀ client ∈ model.clients[clientId]?, _))

theorem Promoted.authoritySafe_iff (ended : Promoted server newInstance action next (.ok ()))
    (other : newInstance ≠ server.authorityInstance) :
    AuthoritySafe next ↔ newInstance ∉ server.fencedInstances := by
  constructor
  · intro promoted member
    cases ended with
    | _ => exact promoted.unfenced (mem_insert_of_mem member)
  · intro unfenced
    cases ended with
    | lossless =>
      refine ⟨?_, Nat.succ_ne_zero _, by simp [concludePromotion], ?_⟩
      · simpa [concludePromotion, fence] using ⟨other, unfenced⟩
      · rintro _ ⟨⟩
        exact ⟨fun _ => rfl, fun changed => by cases changed⟩
    | dataLoss =>
      refine ⟨?_, Nat.succ_ne_zero _, by simp [concludePromotion], ?_⟩
      · simpa [concludePromotion, fence, truncate] using ⟨other, unfenced⟩
      · rintro _ ⟨⟩
        exact ⟨fun proven => (by cases proven), fun _ => (Nat.lt_succ_self _).ne⟩

theorem Effect.authoritySafe_iff (effect : Effect model action next (.ok ())) (safe : AuthoritySafe model.server) :
    AuthoritySafe next.server ↔ model.PromotesUnfenced action := by
  cases effect with
  | served _ _ _ answered => exact iff_of_true (safe.congr answered.sameAuthority) nofun
  | promoted chosen other ended =>
    refine (ended.authoritySafe_iff other).trans ?_
    rcases chosen with rfl | ⟨_, rfl⟩ <;>
      simp [Model.PromotesUnfenced, ModelAction.newInstance?]
  | quarantined =>
    exact iff_of_true ⟨safe.unfenced, safe.token, by simp [Model.withServer], safe.continuity⟩ nofun
  | recovered trusted =>
    exact iff_of_true
      ⟨safe.unfenced, safe.token, by simp [Model.withServer, trusted], safe.continuity⟩ nofun
  | serverFlagged chosen =>
    refine iff_of_true (safe.congr ⟨rfl, rfl, rfl, rfl, rfl, rfl, rfl⟩) ?_
    subst chosen
    split <;> nofun
  | clientFlagged chosen _ =>
    refine iff_of_true safe ?_
    subst chosen
    split <;> nofun
  | networkFlagged chosen =>
    refine iff_of_true safe ?_
    subst chosen
    split <;> nofun
  | _ => exact iff_of_true safe nofun

theorem ClientChange.ambiguous (change : ClientChange model action clientId client after) :
    after.ambiguousOldEpoch ⊆ client.ambiguousOldEpoch ∨
      action = .rebootstrapClient clientId ∧ after = model.server.bootstrap client := by
  cases change with
  | interrupted _ _ _ gap =>
    exact .inl (ClientModel.applyChanges_sameIntent gap).ambiguousOldEpoch.subset
  | @reconciled response _ _ _ _ complete =>
    rw [← (ClientModel.applyChanges_sameIntent complete).ambiguousOldEpoch]
    cases response.outcome with
    | none => exact .inl (Subset.refl _)
    | some _ => exact .inl (erase_subset _ _)
  | rebootstrapped chosen => exact .inr ⟨chosen, rfl⟩
  | resolved => exact .inl (erase_subset _ _)
  | _ => exact .inl (Subset.refl _)

theorem Effect.withheld (effect : Effect model action next result) (withheld : model.Withheld)
    (quiet : model.RebootstrapsQuietly action) : next.Withheld := by
  intro clientId _ found request member mine operation carried
  obtain ⟨before, present, change⟩ := effect.clientChange found
  rcases effect.request member with earlier | ⟨client, sent, sender, created, front⟩
  · rcases change.ambiguous with subset | ⟨rfl, rfl⟩
    · exact fun inside =>
        withheld clientId before present request earlier mine operation carried (subset inside)
    · rw [mem_bootstrap_ambiguous]
      rintro ⟨possiblySent, pending⟩
      exact quiet clientId rfl before present request earlier ⟨mine, operation, carried, possiblySent, pending⟩
  · -- A request just sent carries an operation its client had not held back.
    rw [created] at carried
    obtain ⟨chosen, -, clear⟩ := front operation carried
    rw [mine] at sender
    cases sender.symm.trans present
    rcases change.ambiguous with subset | ⟨snapshot, -⟩
    · exact fun inside => clear (subset inside)
    · rw [chosen] at snapshot
      cases snapshot

theorem Effect.rebootstrapsQuietly (effect : Effect model action next (.ok ()))
    (withheld : next.Withheld) : model.RebootstrapsQuietly action := by
  intro _ chosen
  cases effect with
  | @rebootstrapped snapshotId client found =>
    obtain rfl := Option.some.inj chosen
    rintro _ lookup request member ⟨mine, operation, carried, possiblySent, pending⟩
    obtain rfl := Option.some.inj (found.symm.trans lookup)
    have stored : (model.setClient snapshotId (model.server.bootstrap client)).clients[snapshotId]? =
        some (model.server.bootstrap client) := by simp
    exact withheld snapshotId _ stored request member mine operation carried
      (mem_bootstrap_ambiguous.mpr ⟨possiblySent, pending⟩)
  | @clientFlagged _ _ _ crashed flag => subst flag; cases crashed <;> cases chosen
  | @serverFlagged _ crashed flag => subst flag; cases crashed <;> cases chosen
  | @networkFlagged _ connected flag => subst flag; cases connected <;> cases chosen
  | promoted promotion => rcases promotion with rfl | ⟨_, rfl⟩ <;> cases chosen
  | _ => cases chosen

section Runs
variable (blake3 : List UInt8 → Vector UInt8 32)

/-- Over runs of accepted actions, the failover check passes in every state exactly when every
promotion activates an unfenced instance and every client re-bootstraps quietly. -/
theorem Model.failoverCheck_throughout_iff (clientCount : UInt8) (actions : List ModelAction)
    (accepted : Permitted (step blake3) (Accepts blake3) (Model.new clientCount) actions) :
    Throughout (step blake3) (fun model => model.checkAuthorityFailover = .ok ())
        (Model.new clientCount) actions ↔
      Permitted (step blake3)
        (fun model action => model.PromotesUnfenced action ∧ model.RebootstrapsQuietly action)
        (Model.new clientCount) actions := by
  refine throughout_iff_permitted ?_ fun before action after split safe => ?_
  · refine checkAuthorityFailover_ok.mpr (failoverSafe_iff.mpr ⟨?_, ?_⟩)
    · exact AuthoritySafe.initial
    · simp [Withheld, Model.new, NetworkModel.default]
  · have effect := step_effect_of_accepts blake3
      (permitted_iff_cut.mp accepted before action after split)
    obtain ⟨authority, withheld⟩ :=
      failoverSafe_iff.mp (checkAuthorityFailover_ok.mp safe)
    rw [checkAuthorityFailover_ok, failoverSafe_iff, effect.authoritySafe_iff authority]
    exact and_congr_right fun _ =>
      ⟨fun next => effect.rebootstrapsQuietly next, fun quiet => effect.withheld withheld quiet⟩

/-- A data-loss promotion, a quiet re-bootstrap and a recovery keep the failover check passing. -/
theorem Model.failoverCheck_quiet_run : Throughout (step fun _ => Vector.replicate 32 0)
      (fun model => model.checkAuthorityFailover = .ok ()) (Model.new 1)
      [.localMutate ⟨0⟩ ⟨⟨0⟩, ⟨0⟩, ⟨0⟩, none, 7⟩, .sendOperation ⟨0⟩, .deliverRequest 0,
        .promoteWithDataLoss 2 0, .rebootstrapClient ⟨0⟩, .completeAuthorityRecovery] :=
  (failoverCheck_throughout_iff _ 1 _ (by decide +kernel)).mpr (by decide +kernel)

/-- Two runs of accepted actions that the failover check rejects: an instance is promoted back
after it was fenced, and a client re-bootstraps while its request is still in flight. -/
theorem Model.failoverCheck_violations : (Permitted (step fun _ => Vector.replicate 32 0)
        (Accepts fun _ => Vector.replicate 32 0) (Model.new 1)
        [.promoteLossless 2, .promoteLossless 1] ∧
      (final (step fun _ => Vector.replicate 32 0) (Model.new 1)
        [.promoteLossless 2, .promoteLossless 1]).checkAuthorityFailover =
        .error
          { invariant := .authorityOldPrimaryFence
            detail := "the active authority instance is also marked fenced" }) ∧
    (Permitted (step fun _ => Vector.replicate 32 0)
        (Accepts fun _ => Vector.replicate 32 0) (Model.new 1)
        [.localMutate ⟨0⟩ ⟨⟨0⟩, ⟨0⟩, ⟨0⟩, none, 7⟩, .sendOperation ⟨0⟩, .rebootstrapClient ⟨0⟩] ∧
      (final (step fun _ => Vector.replicate 32 0) (Model.new 1)
        [.localMutate ⟨0⟩ ⟨⟨0⟩, ⟨0⟩, ⟨0⟩, none, 7⟩, .sendOperation ⟨0⟩,
          .rebootstrapClient ⟨0⟩]).checkAuthorityFailover =
        .error
          { invariant := .authorityOperationRecoveryPolicy
            detail := "client ClientId(0) sent an unresolved old-epoch operation" }) := by
  decide +kernel

end Runs

end Aequora.SyncModel
