import Aequora.Base.SaturatingLog
import Aequora.SyncModel.Safety

/-! Local-intent atomicity: what a client shows beyond its reconciled state is backed by an
operation in its outbox, unless an ambiguous operation was abandoned. -/

namespace Aequora.SyncModel

open Std Aequora.Base Run

/-- The journal is numbered by the saturating sequence counter. -/
structure SequenceChained (server : ServerModel) : Prop where
  successive : Successive ModelEvent.sequence server.journal
  within : ∀ event ∈ server.journal, event.sequence ≤ u64Max
  following : server.nextSequence =
    server.journal.getLast?.elim 1 fun event => saturatingAdd event.sequence 1

section
variable (chained : SequenceChained server)
include chained

theorem SequenceChained.nextSequence_le : server.nextSequence ≤ u64Max := by
  rw [chained.following]
  cases server.journal.getLast? with
  | none => decide
  | some _ => exact saturatingAdd_le _ _

theorem SequenceChained.congr (same : SameHistory server next) :
    SequenceChained next where
  successive := by rw [same.journal]; exact chained.successive
  within := by rw [same.journal]; exact chained.within
  following := by rw [same.journal, same.nextSequence]; exact chained.following

theorem SequenceChained.step (change : HistoryChange server next) :
    SequenceChained next := by
  cases change with
  | kept same => exact chained.congr same
  | conflicted fresh => exact ⟨chained.successive, chained.within, chained.following⟩
  | @committed _ _ _ _ =>
    refine ⟨?_, ?_, ?_⟩
    · refine chained.successive.snoc fun last found => ?_
      rw [chained.following, found]
      rfl
    · intro event member
      rcases List.mem_append.mp member with earlier | added
      · exact chained.within event earlier
      · rw [List.mem_singleton.mp added]
        exact chained.nextSequence_le
    · simp [ServerModel.record, ServerModel.publish, ModelOperation.event]
  | truncated retainThrough same =>
    refine congr ⟨?_, ?_, rfl⟩ same
    · exact chained.successive.filter_le chained.within retainThrough
    · exact fun event member => chained.within event (List.mem_of_mem_filter member)

end

variable {client : ClientModel}

theorem ClientModel.applyChanges_ok (successive : Successive ModelEvent.sequence changes)
    (reachable : ∀ event, changes.head? = some event →
      event.sequence ≤ saturatingAdd client.cursor 1) :
    (client.applyChanges changes).2 = .ok () := by
  induction changes generalizing client with
  | nil => rfl
  | cons event rest ih =>
    have first := reachable event rfl
    have follow : ∀ following, rest.head? = some following →
        following.sequence = saturatingAdd event.sequence 1 := by
      intro following found
      exact (List.isChain_cons.mp successive).1 following found
    rw [applyChanges]
    split
    · rename_i seen
      refine ih successive.tail fun following found => ?_
      rw [follow following found]
      exact saturatingAdd_one_mono seen
    · rename_i ahead
      dsimp only
      split
      · rename_i skipped
        rcases saturatingAdd_one_cases client.cursor with _ | ⟨_, _⟩ <;> omega
      · refine ih successive.tail fun following found => ?_
        rw [follow following found]
        exact le_rfl

theorem ClientModel.applyChanges_error (successive : Successive ModelEvent.sequence changes)
    (within : ∀ event ∈ changes, event.sequence ≤ u64Max)
    (gap : client.applyChanges changes = (applied, .error error)) : applied = client := by
  cases changes with
  | nil => cases gap
  | cons event rest =>
    by_cases reachable : event.sequence ≤ saturatingAdd client.cursor 1
    · have complete : (client.applyChanges (event :: rest)).2 = .ok () :=
        applyChanges_ok successive fun first found => by
          cases found
          exact reachable
      rw [gap] at complete
      cases complete
    · have bound := within event List.mem_cons_self
      have beyond : ¬ event.sequence ≤ client.cursor := by
        rcases saturatingAdd_one_cases client.cursor with _ | ⟨_, _⟩ <;> omega
      have skipped : event.sequence ≠ saturatingAdd client.cursor 1 := by omega
      rw [applyChanges, if_neg beyond] at gap
      simp only [if_pos skipped] at gap
      exact (Prod.mk.inj gap).1.symm

theorem overlay_untouched (untouched : ∀ operation ∈ outbox, operation.entity ≠ entity) :
    (overlay state outbox)[entity]? = state[entity]? := by
  induction outbox generalizing state with
  | nil => rfl
  | cons pending _ ih =>
    have different := untouched pending List.mem_cons_self
    have later := fun operation member => untouched operation (List.mem_cons_of_mem pending member)
    refine (ih later).trans ?_
    rw [lookup_insert, if_neg different]

/-- Every entity on which the optimistic state departs from the reconciled one has a pending
operation. -/
def ClientModel.Backed (client : ClientModel) : Prop :=
  ∀ entity, client.optimisticState[entity]? ≠ client.authoritativeState[entity]? →
    ∃ operation ∈ client.outbox, operation.entity = entity

theorem ClientModel.backed_rebuildOverlay (client : ClientModel) : client.rebuildOverlay.Backed := by
  intro _ differs
  by_contra unbacked
  push Not at unbacked
  exact differs (overlay_untouched unbacked)

/-- Abandoning the operation leaves another pending operation on each entity it wrote. -/
def ClientModel.KeepsIntentWithout (client : ClientModel) (operationId : ModelOperationId) : Prop :=
  ∀ abandoned ∈ client.outbox, abandoned.id = operationId →
    ∃ other ∈ client.outbox, other.id ≠ operationId ∧ other.entity = abandoned.entity

instance (client : ClientModel) (operationId : ModelOperationId) :
    Decidable (client.KeepsIntentWithout operationId) :=
  inferInstanceAs (Decidable (∀ abandoned ∈ client.outbox, _))

def ModelAction.abandons? : ModelAction → Option (ClientId × ModelOperationId)
  | .resolveAmbiguous clientId operationId false => some (clientId, operationId)
  | _ => none

/-- The step condition: an accepted abandonment never drops the last operation on an entity. -/
def Model.AbandonKeepsIntent (model : Model) (action : ModelAction) : Prop :=
  ∀ abandoned ∈ action.abandons?, ∀ client ∈ model.clients[abandoned.1]?,
    abandoned.2 ∈ client.ambiguousOldEpoch → client.KeepsIntentWithout abandoned.2

instance (model : Model) (action : ModelAction) : Decidable (model.AbandonKeepsIntent action) :=
  inferInstanceAs (Decidable (∀ abandoned ∈ action.abandons?, ∀ client ∈ model.clients[abandoned.1]?, _))

theorem ClientModel.Backed.mutate (backed : client.Backed)
    (operation : ModelOperation) (expectedVersion : Option Nat) :
    (client.mutate operation expectedVersion).Backed := by
  intro entity differs
  by_cases same : operation.entity = entity
  · exact ⟨operation, by simp [ClientModel.mutate], same⟩
  · simp only [ClientModel.mutate, lookup_insert, if_neg same] at differs
    obtain ⟨pending, member, chosen⟩ := backed entity differs
    exact ⟨pending, by simp [ClientModel.mutate, member], chosen⟩

theorem ClientModel.Backed.resolve (backed : client.Backed)
    (kept : safeReplay = false → client.KeepsIntentWithout operationId) :
    (client.resolve operationId safeReplay).Backed := by
  intro entity differs
  obtain ⟨operation, member, chosen⟩ := backed entity differs
  cases safeReplay with
  | true => exact ⟨operation, member, chosen⟩
  | false =>
    by_cases abandoned : operation.id = operationId
    · obtain ⟨other, present, different, same⟩ := kept rfl operation member abandoned
      exact ⟨other, by simpa [ClientModel.resolve] using ⟨present, different⟩, same.trans chosen⟩
    · exact ⟨operation, by simpa [ClientModel.resolve] using ⟨member, abandoned⟩, chosen⟩

/-- The inductive invariant behind local-intent atomicity. -/
structure Model.IntentBacked (model : Model) : Prop where
  chained : SequenceChained model.server
  successive : ∀ response ∈ model.network.responses, Successive ModelEvent.sequence response.changes
  within : ∀ response ∈ model.network.responses, ∀ event ∈ response.changes, event.sequence ≤ u64Max
  backed : ∀ (clientId : ClientId) client,
    model.clients[clientId]? = some client → client.Backed

theorem Model.IntentBacked.initial (clientCount : UInt8) : (Model.new clientCount).IntentBacked where
  chained := ⟨.nil, by simp [Model.new, ServerModel.default], rfl⟩
  successive response member := by simp [Model.new, NetworkModel.default] at member
  within response member := by simp [Model.new, NetworkModel.default] at member
  backed clientId client found entity differs := by
    rw [new_clients found] at differs
    exact absurd rfl differs

theorem Model.IntentBacked.clientChange (intent : model.IntentBacked) (found : model.clients[clientId]? = some client)
    (change : ClientChange model action clientId client after)
    (kept : model.AbandonKeepsIntent action) : after.Backed := by
  have backed := intent.backed clientId client found
  cases change with
  | kept => exact backed
  | flagged => exact backed
  | mutated => exact backed.mutate _ _
  | sent => exact backed
  | interrupted member _ _ gap =>
    rw [ClientModel.applyChanges_error (intent.successive _ member) (intent.within _ member) gap]
    exact backed
  | reconciled => exact ClientModel.backed_rebuildOverlay _
  | rebootstrapped => exact ClientModel.backed_rebuildOverlay _
  | @resolved _ _ chosen ambiguous =>
    refine backed.resolve fun abandons => ?_
    subst abandons chosen
    exact kept _ rfl client found ambiguous

theorem Model.IntentBacked.step {model : Model} (intent : model.IntentBacked) (kept : model.AbandonKeepsIntent action) :
    (model.step blake3 action).IntentBacked := by
  obtain ⟨_, effect⟩ := model.step_effect blake3 action
  have chained := intent.chained.step effect.historyChange
  refine ⟨chained, ?_, ?_, ?_⟩
  · intro response member
    rcases effect.response member with earlier | ⟨request, _, outcome, epoch, answered, rfl⟩
    · exact intent.successive response earlier
    · exact chained.successive.filter_gt chained.within request.cursor
  · intro response member event inside
    rcases effect.response member with earlier | ⟨_, _, _, _, _, rfl⟩
    · exact intent.within response earlier event inside
    · exact chained.within event (List.mem_of_mem_filter inside)
  · intro _ _ found
    obtain ⟨_, present, change⟩ := effect.clientChange found
    exact intent.clientChange present change kept

/-- Reconciled versions are below the saturation point of the version counter. -/
def ClientModel.VersionsBelowMax (client : ClientModel) : Prop :=
  ∀ (entity : ModelEntityId) canonical,
    client.authoritativeState[entity]? = some canonical → canonical.version < u64Max

/-- Every pending operation shows: its entity's optimistic state is not the reconciled one. -/
def ClientModel.Provisional (client : ClientModel) : Prop :=
  ∀ operation ∈ client.outbox, ∃ optimistic,
    client.optimisticState[operation.entity]? = some optimistic ∧
      client.authoritativeState[operation.entity]? ≠ some optimistic

/-- An overlaid entity is either untouched or strictly newer than its reconciled state. -/
private def OverlaidEntity (state optimistic : ExtTreeMap ModelEntityId CanonicalEntity)
    (entity : ModelEntityId) : Prop :=
  ∃ shown, optimistic[entity]? = some shown ∧
    ∀ canonical, state[entity]? = some canonical → canonical.version < shown.version

private theorem overlay_newer (below : ∀ (entity : ModelEntityId) canonical,
      state[entity]? = some canonical → canonical.version < u64Max)
    (start : ∀ entity,
      optimistic[entity]? = state[entity]? ∨ OverlaidEntity state optimistic entity)
    (entity : ModelEntityId)
    (touched : OverlaidEntity state optimistic entity ∨ ∃ operation ∈ outbox, operation.entity = entity) :
    OverlaidEntity state (overlay optimistic outbox) entity := by
  induction outbox generalizing optimistic with
  | nil => simpa [overlay] using touched
  | cons pending _ ih =>
    -- Laying one operation over the state makes its entity newer and keeps newer entities newer.
    have own : ∀ canonical, state[pending.entity]? = some canonical →
        canonical.version <
          (optimistic[pending.entity]?.elim 1 fun entity => saturatingAdd entity.version 1) := by
      intro canonical found
      have room := below pending.entity canonical found
      rcases start pending.entity with same | ⟨shown, present, newer⟩
      · rw [same, found, Option.elim_some, saturatingAdd_one_of_lt room]
        exact Nat.lt_succ_self _
      · have := newer canonical found
        rw [present, Option.elim_some]
        rcases saturatingAdd_one_cases shown.version with _ | ⟨_, -⟩ <;> omega
    refine ih (fun other => ?_) ?_
    · by_cases same : pending.entity = other
      · subst other
        exact .inr ⟨_, by rw [lookup_insert, if_pos rfl], own⟩
      · rcases start other with untouched | ⟨shown, present, newer⟩
        · exact .inl (by rw [lookup_insert, if_neg same, untouched])
        · exact .inr ⟨shown, by rw [lookup_insert, if_neg same, present], newer⟩
    · by_cases same : pending.entity = entity
      · subst entity
        exact .inl ⟨_, by rw [lookup_insert, if_pos rfl], own⟩
      · rcases touched with ⟨shown, present, newer⟩ | ⟨operation, member, chosen⟩
        · exact .inl ⟨shown, by rw [lookup_insert, if_neg same, present], newer⟩
        · rcases List.mem_cons.mp member with rfl | inside
          · exact absurd chosen same
          · exact .inr ⟨operation, inside, chosen⟩

theorem ClientModel.provisional_rebuildOverlay (below : client.VersionsBelowMax) :
    client.rebuildOverlay.Provisional := by
  intro operation member
  obtain ⟨shown, present, newer⟩ :=
    overlay_newer below (fun _ => .inl rfl) operation.entity (.inr ⟨operation, member, rfl⟩)
  refine ⟨shown, present, fun same => ?_⟩
  exact Nat.lt_irrefl _ (newer shown same)

theorem ClientModel.Provisional.mutate (provisional : client.Provisional) (below : client.VersionsBelowMax)
    (expected : operation.expectedVersion =
      client.authoritativeState[operation.entity]?.map CanonicalEntity.version) :
    (client.mutate operation operation.expectedVersion).Provisional := by
  intro pending member
  simp only [ClientModel.mutate, lookup_insert] at member ⊢
  by_cases same : operation.entity = pending.entity
  · refine ⟨_, by rw [if_pos same], fun shown => ?_⟩
    rw [← same] at shown
    have room := below operation.entity _ shown
    have version : operation.expectedVersion.getD 0 =
        saturatingAdd (operation.expectedVersion.getD 0) 1 := by
      conv_lhs => rw [expected, shown]
      rfl
    dsimp only at room
    rcases saturatingAdd_one_cases (operation.expectedVersion.getD 0) with _ | ⟨_, -⟩ <;> omega
  · rcases List.mem_append.mp member with earlier | added
    · obtain ⟨shown, present, differs⟩ := provisional pending earlier
      exact ⟨shown, by rw [if_neg same, present], differs⟩
    · exact absurd (congrArg ModelOperation.entity (List.mem_singleton.mp added).symm) same

theorem ClientChange.provisional (change : ClientChange model action clientId client after)
    (intent : model.IntentBacked) (below : client.VersionsBelowMax) (stillBelow : after.VersionsBelowMax)
    (provisional : client.Provisional) : after.Provisional := by
  cases change with
  | kept => exact provisional
  | flagged => exact provisional
  | mutated chosen _ expected => exact provisional.mutate below expected
  | sent => exact provisional
  | interrupted member _ _ gap =>
    rw [ClientModel.applyChanges_error (intent.successive _ member) (intent.within _ member) gap]
    exact provisional
  | reconciled => exact ClientModel.provisional_rebuildOverlay stillBelow
  | rebootstrapped => exact ClientModel.provisional_rebuildOverlay stillBelow
  | @resolved _ safeReplay _ _ =>
    intro operation member
    refine provisional operation ?_
    cases safeReplay with
    | true => exact member
    | false => exact List.mem_of_mem_filter member

/-- An abandonment the check tolerates left another pending operation on the entity. -/
theorem ClientModel.Provisional.abandoned (provisional : client.Provisional)
    (checked : ∀ entity optimistic,
      (client.resolve operationId false).optimisticState[entity]? = some optimistic →
        (client.resolve operationId false).authoritativeState[entity]? = some optimistic ∨
          ∃ operation ∈ (client.resolve operationId false).outbox, operation.entity = entity) :
    client.KeepsIntentWithout operationId := by
  intro abandoned member _
  obtain ⟨shown, present, differs⟩ := provisional abandoned member
  rcases checked abandoned.entity shown present with same | ⟨other, kept, chosen⟩
  · exact absurd same differs
  · simp only [resolve, Bool.false_eq_true, ↓reduceIte, List.mem_filter, bne_iff_ne] at kept
    exact ⟨other, kept.1, kept.2, chosen⟩

section Runs
variable (blake3 : List UInt8 → Vector UInt8 32)

def Model.VersionsBelowMax (model : Model) : Prop :=
  ∀ (clientId : ClientId) client,
    model.clients[clientId]? = some client → client.VersionsBelowMax

def Model.Provisional (model : Model) : Prop :=
  ∀ (clientId : ClientId) client,
    model.clients[clientId]? = some client → client.Provisional

theorem Model.IntentBacked.checked {model : Model} (intent : model.IntentBacked) :
    model.checkLocalIntentAtomicity = .ok () := by
  refine checkLocalIntentAtomicity_ok.mpr fun clientId client found entity optimistic shown => ?_
  by_cases same : client.authoritativeState[entity]? = some optimistic
  · exact .inl same
  · exact .inr (intent.backed clientId client found entity (by rw [shown]; exact Ne.symm same))

theorem Model.abandonKeepsIntent_of_checked {model : Model} (provisional : model.Provisional)
    (checked : (model.step blake3 action).checkLocalIntentAtomicity = .ok ()) :
    model.AbandonKeepsIntent action := by
  rintro ⟨clientId, operationId⟩ chosen client found ambiguous
  have action_eq : action = .resolveAmbiguous clientId operationId false := by
    unfold ModelAction.abandons? at chosen
    split at chosen
    · cases Option.some.inj chosen
      rfl
    · cases chosen
  subst action_eq
  have next : model.step blake3 (.resolveAmbiguous clientId operationId false) =
      model.setClient clientId (client.resolve operationId false) := by
    simp [step, applyUnchecked, resolveAmbiguous, Option.mem_def.mp found, ambiguous]
  rw [next] at checked
  exact (provisional clientId client found).abandoned
    (checkLocalIntentAtomicity_ok.mp checked clientId _ (by simp))

private theorem permitted_of_checked (intent : model.IntentBacked) (provisional : model.Provisional)
    (below : Throughout (Model.step blake3) Model.VersionsBelowMax model actions)
    (checked : Throughout (Model.step blake3)
      (fun state => state.checkLocalIntentAtomicity = .ok ()) model actions) :
    Permitted (Model.step blake3) Model.AbandonKeepsIntent model actions := by
  induction actions generalizing model with
  | nil => trivial
  | cons action _ ih =>
    have kept := Model.abandonKeepsIntent_of_checked blake3 provisional checked.2.head
    refine ⟨kept, ih (intent.step kept) ?_ below.2 checked.2⟩
    intro clientId after found
    obtain ⟨_, effect⟩ := model.step_effect blake3 action
    obtain ⟨before, present, change⟩ := effect.clientChange found
    exact change.provisional intent (below.1 clientId before present)
      (below.2.head clientId after found) (provisional clientId before present)

/-- Local-intent atomicity holds in every state of a run whose abandonments all leave another
pending operation on the entity, and, as long as no reconciled version saturates, in no other run. -/
theorem Model.localIntent_of_abandonments (clientCount : UInt8) (actions : List ModelAction) :
    (Permitted (step blake3) AbandonKeepsIntent (Model.new clientCount) actions →
      Throughout (step blake3) (fun model =>
        model.checkLocalIntentAtomicity = .ok () ∧
        ∀ (clientId : ClientId) client, model.clients[clientId]? = some client →
          ∀ entity,
            client.optimisticState[entity]? ≠ client.authoritativeState[entity]? →
              ∃ operation ∈ client.outbox, operation.entity = entity)
        (Model.new clientCount) actions) ∧
    (Throughout (step blake3) VersionsBelowMax (Model.new clientCount) actions →
      Throughout (step blake3) (fun model => model.checkLocalIntentAtomicity = .ok ())
        (Model.new clientCount) actions →
      Permitted (step blake3) AbandonKeepsIntent (Model.new clientCount) actions) := by
  constructor
  · intro allowed
    have intent : Throughout (step blake3) IntentBacked (Model.new clientCount) actions :=
      .of_step (.initial clientCount) (fun _ _ before => before.step) allowed
    exact intent.mono fun _ state => ⟨state.checked, state.backed⟩
  · refine permitted_of_checked blake3 (.initial clientCount) ?_
    intro _ _ found _ member
    rw [new_clients found] at member
    cases member

/-- The condition admits a run that abandons an operation whose entity has a second one. -/
theorem Model.localIntent_second_operation : Throughout (step fun _ => Vector.replicate 32 0)
      (fun model => model.checkLocalIntentAtomicity = .ok () ∧
        ∀ (clientId : ClientId) client, model.clients[clientId]? = some client →
          ∀ entity,
            client.optimisticState[entity]? ≠ client.authoritativeState[entity]? →
              ∃ operation ∈ client.outbox, operation.entity = entity)
      (Model.new 1)
      [.localMutate ⟨0⟩ ⟨⟨0⟩, ⟨0⟩, ⟨0⟩, none, 7⟩, .localMutate ⟨0⟩ ⟨⟨1⟩, ⟨1⟩, ⟨0⟩, none, 8⟩,
        .sendOperation ⟨0⟩, .promoteWithDataLoss 2 0, .rebootstrapClient ⟨0⟩,
        .resolveAmbiguous ⟨0⟩ ⟨0⟩ false] :=
  (localIntent_of_abandonments _ 1 _).1 (by decide +kernel)

/-- After a failover the client re-bootstraps and abandons its only operation: the optimistic
write stays visible without any intent behind it. -/
theorem Model.abandoned_write_stays_visible : Permitted (step fun _ => Vector.replicate 32 0)
        (Accepts fun _ => Vector.replicate 32 0) (Model.new 1)
        [.localMutate ⟨0⟩ ⟨⟨0⟩, ⟨0⟩, ⟨0⟩, none, 7⟩, .sendOperation ⟨0⟩, .promoteWithDataLoss 2 0,
          .rebootstrapClient ⟨0⟩, .resolveAmbiguous ⟨0⟩ ⟨0⟩ false] ∧
      (final (step fun _ => Vector.replicate 32 0) (Model.new 1)
        [.localMutate ⟨0⟩ ⟨⟨0⟩, ⟨0⟩, ⟨0⟩, none, 7⟩, .sendOperation ⟨0⟩, .promoteWithDataLoss 2 0,
          .rebootstrapClient ⟨0⟩,
          .resolveAmbiguous ⟨0⟩ ⟨0⟩ false]).checkLocalIntentAtomicity =
        .error
          { invariant := .localIntentAtomicity
            detail := "client ClientId(0) has provisional entity ModelEntityId(0) without intent" } := by
  decide +kernel

end Runs

end Aequora.SyncModel
