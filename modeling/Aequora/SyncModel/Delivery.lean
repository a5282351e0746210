import Aequora.SyncModel.Checks
import Aequora.SyncModel.Ownership

/-! No lost intent. Without data-loss promotions and abandonments, an accepted operation stays in
its client's outbox until the ledger records it for good. -/

namespace Aequora.SyncModel

open Std Aequora.Base ServerModel Run ClientModel

def ModelAction.retainsIntent : ModelAction → Bool
  | .promoteWithDataLoss _ _ => false
  | .resolveAmbiguous _ _ safeReplay => safeReplay
  | _ => true

variable {clientId : ClientId}

section
variable (effect : Effect model action next result)
include effect

theorem Effect.client_present (found : model.clients[clientId]? = some before) :
    ∃ after, next.clients[clientId]? = some after := by
  have stored : ∀ (base : Model) other client,
      base.clients = model.clients → ∃ after, (base.setClient other client).clients[clientId]? = some after := by
    intro _ _ client same
    rw [Model.setClient_clients, same]
    split
    · exact ⟨client, rfl⟩
    · exact ⟨before, found⟩
  cases effect with
  | mutated => exact stored _ _ _ rfl
  | sent => exact stored _ _ _ rfl
  | interrupted => exact stored _ _ _ rfl
  | reconciled => exact stored _ _ _ rfl
  | clientFlagged => exact stored _ _ _ rfl
  | rebootstrapped => exact stored _ _ _ rfl
  | resolved => exact stored _ _ _ rfl
  | _ => exact ⟨before, found⟩

/-- A pending operation leaves the outbox only by a response that settles it. -/
theorem Effect.outbox_kept (retains : action.retainsIntent = true)
    (found : model.clients[clientId]? = some before)
    (member : operation ∈ before.outbox) :
    (∃ after, next.clients[clientId]? = some after ∧ operation ∈ after.outbox) ∨
      ∃ response ∈ model.network.responses, ∃ outcome,
        response.outcome = some (operation.id, outcome) := by
  obtain ⟨after, stored⟩ := effect.client_present found
  obtain ⟨_, present, change⟩ := effect.clientChange stored
  cases found.symm.trans present
  cases change with
  | mutated => exact .inl ⟨_, stored, List.mem_append_left _ member⟩
  | interrupted _ _ _ gap =>
    exact .inl ⟨after, stored, (applyChanges_sameIntent gap).outbox ▸ member⟩
  | @reconciled response _ received _ _ complete =>
    by_cases settled : ∃ outcome, response.outcome = some (operation.id, outcome)
    · exact .inr ⟨response, received, settled⟩
    · refine .inl ⟨_, stored, ?_⟩
      rw [reconcile_outbox, (applyChanges_sameIntent complete).outbox]
      refine List.mem_filter.mpr ⟨member, ?_⟩
      cases answer : response.outcome with
      | none => rfl
      | some pair =>
        have different : pair.1 ≠ operation.id := by
          intro same
          exact settled ⟨pair.2, by rw [answer, ← same]⟩
        simpa using different
  | @resolved _ safeReplay chosen =>
    subst chosen
    obtain rfl : safeReplay = true := retains
    exact .inl ⟨_, stored, member⟩
  | _ => exact .inl ⟨_, stored, member⟩

theorem Effect.mutation_pending (created : (clientId, operation) ∈ action.mutationOf result) :
    ∃ after, next.clients[clientId]? = some after ∧ operation ∈ after.outbox := by
  unfold ModelAction.mutationOf at created
  split at created
  · cases List.mem_singleton.mp created
    rcases effect.localMutate with ⟨_, failed⟩ | ⟨_, client, rfl⟩
    · exact absurd rfl failed
    · exact ⟨client.mutate operation operation.expectedVersion, by simp,
        List.mem_append_right _ List.mem_cons_self⟩
  · cases created

end

theorem Served.ledger_kept (answered : Served server operation next answer) {operationId : ModelOperationId}
    (recorded : server.appliedOperations[operationId]? = some outcome) :
    next.appliedOperations[operationId]? = some outcome := by
  have different : ∀ carried : ModelOperation,
      server.appliedOperations[carried.id]? = none → carried.id ≠ operationId := by
    rintro _ fresh rfl
    rw [fresh] at recorded
    cases recorded
  cases answered with
  | pulled => exact recorded
  | retried => exact recorded
  | conflicted fresh => simp [record, lookup_insert, different _ fresh, recorded]
  | committed fresh =>
    simp [record, publish, lookup_insert, different _ fresh, recorded]

theorem Served.answer_recorded (answered : Served server operation next (some (operationId, outcome))) :
    next.appliedOperations[operationId]? = some outcome := by
  cases answered with
  | retried recorded => exact recorded
  | conflicted => simp [record]
  | committed => simp [record]

theorem Effect.ledger_kept (effect : Effect model action next result)
    (retains : action.retainsIntent = true) {operationId : ModelOperationId}
    (recorded : model.server.appliedOperations[operationId]? = some outcome) :
    next.server.appliedOperations[operationId]? = some outcome := by
  cases effect with
  | served _ _ _ answered => exact answered.ledger_kept recorded
  | promoted _ _ ended =>
    cases ended with
    | fenceExhausted => exact recorded
    | lossless => exact recorded
    | epochExhausted => cases retains
    | dataLoss => cases retains
  | _ => exact recorded

/-- Every accepted operation is pending or recorded, and every response in flight reports a
recorded outcome. -/
structure Model.Delivered (model : Model) (mutations : List (ClientId × ModelOperation)) : Prop where
  answered : ∀ response ∈ model.network.responses, ∀ operationId outcome,
    response.outcome = some (operationId, outcome) →
      model.server.appliedOperations[operationId]? = some outcome
  preserved : ∀ clientId operation, (clientId, operation) ∈ mutations →
    (∃ client, model.clients[clientId]? = some client ∧ operation ∈ client.outbox) ∨
      operation.id ∈ model.server.appliedOperations

theorem Model.Delivered.initial (clientCount : UInt8) : (Model.new clientCount).Delivered [] :=
  ⟨by simp [Model.new, NetworkModel.default], by simp⟩

theorem Model.Delivered.step {model next : Model} {mutations : List (ClientId × ModelOperation)}
    (delivered : model.Delivered mutations) (effect : Effect model action next result)
    (retains : action.retainsIntent = true) :
    next.Delivered (mutations ++ action.mutationOf result) where
  answered response member operationId outcome reported := by
    rcases effect.response member with earlier | ⟨_, _, answer, _, served, rfl⟩
    · exact effect.ledger_kept retains (delivered.answered response earlier operationId outcome reported)
    · obtain rfl : answer = some (operationId, outcome) := reported
      exact served.answer_recorded
  preserved clientId operation created := by
    rcases List.mem_append.mp created with earlier | now
    · rcases delivered.preserved clientId operation earlier with ⟨_, found, pending⟩ | recorded
      · rcases effect.outbox_kept retains found pending with kept | ⟨response, member, outcome, reported⟩
        · exact .inl kept
        · have recorded := delivered.answered response member operation.id outcome reported
          exact .inr (mem_iff_lookup.mpr ⟨outcome, effect.ledger_kept retains recorded⟩)
      · obtain ⟨outcome, entry⟩ := mem_iff_lookup.mp recorded
        exact .inr (mem_iff_lookup.mpr ⟨outcome, effect.ledger_kept retains entry⟩)
    · exact .inl (effect.mutation_pending now)

/-- Each operation has at most one journal event, and only recorded operations have any. -/
structure JournalRecorded (server : ServerModel) : Prop where
  distinct : (server.journal.map (·.operationId)).Nodup
  recorded : ∀ event ∈ server.journal, event.operationId ∈ server.appliedOperations

theorem JournalRecorded.congr (recorded : JournalRecorded server) (same : SameHistory server next) :
    JournalRecorded next :=
  ⟨by rw [same.journal]; exact recorded.distinct,
    by rw [same.journal, same.appliedOperations]; exact recorded.recorded⟩

theorem JournalRecorded.step (valid : JournalRecorded server) (change : HistoryChange server next) :
    JournalRecorded next := by
  cases change with
  | kept same => exact valid.congr same
  | conflicted fresh =>
    refine ⟨valid.distinct, fun event member => ?_⟩
    exact ExtTreeMap.mem_insert.mpr (.inr (valid.recorded event member))
  | @committed operation _ fresh =>
    refine ⟨?_, fun event member => ?_⟩
    · simp only [record, publish, List.map_append, List.map_singleton]
      refine List.nodup_append.mpr ⟨valid.distinct, List.nodup_singleton _, ?_⟩
      rintro operationId member _ added rfl
      obtain ⟨event, inside, same⟩ := List.mem_map.mp member
      obtain ⟨outcome, entry⟩ := mem_iff_lookup.mp (valid.recorded event inside)
      have chosen : operationId = operation.id := List.mem_singleton.mp added
      rw [same, chosen, fresh] at entry
      cases entry
    · rcases List.mem_append.mp member with earlier | added
      · exact ExtTreeMap.mem_insert.mpr (.inr (valid.recorded event earlier))
      · rw [List.mem_singleton.mp added]
        exact ExtTreeMap.mem_insert_self
  | truncated _ same =>
    refine congr ⟨?_, fun event member => ?_⟩ same
    · exact valid.distinct.sublist (List.filter_sublist.map _)
    · obtain ⟨inside, within⟩ := List.mem_filter.mp member
      obtain ⟨outcome, entry⟩ := mem_iff_lookup.mp (valid.recorded event inside)
      refine mem_iff_lookup.mpr ⟨outcome, truncate_appliedOperations.mpr ⟨entry, ?_⟩⟩
      exact ⟨event, inside, by simpa using within, rfl⟩

theorem JournalRecorded.effects_le_one (valid : JournalRecorded server) (operationId : ModelOperationId) :
    server.effects operationId ≤ 1 := by
  have count := List.nodup_iff_count_le_one.mp valid.distinct operationId
  rwa [List.count, List.countP_map, List.countP_eq_length_filter] at count

section Runs
theorem Model.delivered_of_run (retains : ∀ action ∈ actions, action.retainsIntent = true) :
    (final (step blake3) (Model.new clientCount) actions).Delivered
      (acceptedMutations blake3 clientCount actions) := by
  refine invariant_with_trace (.initial clientCount) ?_ actions [] actions.append_nil.symm
  intro _ action _ split delivered
  exact delivered.step (applyUnchecked_effect blake3 _ action) (retains action (by simp [split]))

theorem Model.journalRecorded_of_run (clientCount : UInt8) (actions : List ModelAction) :
    JournalRecorded (final (step blake3) (Model.new clientCount) actions).server := by
  have recorded : Throughout (step blake3) (fun model => JournalRecorded model.server)
      (Model.new clientCount) actions :=
    .of_invariant ⟨List.nodup_nil, by simp [Model.new, ServerModel.default]⟩ fun model action valid =>
      valid.step (applyUnchecked_effect blake3 model action).historyChange
  exact recorded.final

theorem Model.ledger_kept_of_run {model : Model} (retains : ∀ action ∈ actions, action.retainsIntent = true)
    {operationId : ModelOperationId}
    (recorded : model.server.appliedOperations[operationId]? = some outcome) :
    (final (step blake3) model actions).server.appliedOperations[operationId]? =
      some outcome := by
  induction actions generalizing model with
  | nil => exact recorded
  | cons action _ ih =>
    refine ih (fun later member => retains later (List.mem_cons_of_mem action member)) ?_
    exact (applyUnchecked_effect blake3 model action).ledger_kept
      (retains action List.mem_cons_self) recorded

variable (blake3)

/-- In a run with distinct operation identities, no data-loss promotion and no abandonment, every
accepted operation is pending at its client or recorded under its own lineage, has at most one
effect, and keeps its recorded outcome for the rest of the run. -/
theorem Model.no_lost_intent (clientCount : UInt8) (actions : List ModelAction)
    (distinct : DistinctMutations blake3 clientCount actions)
    (retains : ∀ action ∈ actions, action.retainsIntent = true)
    (before after : List ModelAction) (split : actions = before ++ after)
    (clientId : ClientId) (operation : ModelOperation)
    (accepted : (clientId, operation) ∈ acceptedMutations blake3 clientCount before) :
    ((∃ client, (final (step blake3) (Model.new clientCount) before).clients[clientId]? =
          some client ∧ operation ∈ client.outbox) ∨
      operation.id ∈
          (final (step blake3) (Model.new clientCount) before).server.appliedOperations ∧
        (final (step blake3) (Model.new clientCount) before).server.operationCorrelations[
          operation.id]? = some operation.correlationId) ∧
    (final (step blake3) (Model.new clientCount) before).server.effects operation.id ≤ 1 ∧
    ∀ outcome, (final (step blake3) (Model.new clientCount) before).server.appliedOperations[
        operation.id]? = some outcome →
      ∀ middle rest, after = middle ++ rest →
        (final (step blake3) (Model.new clientCount) (before ++ middle)).server.appliedOperations[
          operation.id]? = some outcome := by
  subst split
  have beforeRetains : ∀ action ∈ before, action.retainsIntent = true := fun action member =>
    retains action (List.mem_append_left after member)
  have inWhole : ∀ mutation ∈ acceptedMutations blake3 clientCount before,
      mutation ∈ acceptedMutations blake3 clientCount (before ++ after) := fun mutation member =>
    (acceptedMutations_append clientCount before after).subset member
  refine ⟨?_, (journalRecorded_of_run clientCount before).effects_le_one operation.id, ?_⟩
  · rcases (delivered_of_run beforeRetains).preserved clientId operation accepted with
      pending | recorded
    · exact .inl pending
    · refine .inr ⟨recorded, ?_⟩
      obtain ⟨outcome, entry⟩ := mem_iff_lookup.mp recorded
      -- The entry was made by some accepted mutation with this identity, hence by this one.
      obtain ⟨owner, original, mutated, same, lineage⟩ :=
        (owned_of_run blake3 clientCount before).recorded operation.id outcome entry
      have unique : (owner, original) = (clientId, operation) :=
        distinct.unique (inWhole _ mutated) (inWhole _ accepted) same
      rw [lineage, (Prod.mk.inj unique).2]
  · intro _ recorded _ _ cut
    rw [final_append]
    refine ledger_kept_of_run (fun action member => retains action ?_) recorded
    simp [cut, member]

/-- A committed operation whose response is lost stays recorded across a lossless promotion. -/
theorem Model.no_lost_intent_lossless_run : (∃ client, (final (step fun _ => Vector.replicate 32 0) (Model.new 1)
        [.localMutate ⟨0⟩ ⟨⟨0⟩, ⟨0⟩, ⟨0⟩, none, 7⟩, .sendOperation ⟨0⟩, .deliverRequest 0,
          .dropResponse 0, .promoteLossless 2]).clients[(⟨0⟩ : ClientId)]? = some client ∧
        (⟨⟨0⟩, ⟨0⟩, ⟨0⟩, none, 7⟩ : ModelOperation) ∈ client.outbox) ∨
      (⟨0⟩ : ModelOperationId) ∈ (final (step fun _ => Vector.replicate 32 0) (Model.new 1)
        [.localMutate ⟨0⟩ ⟨⟨0⟩, ⟨0⟩, ⟨0⟩, none, 7⟩, .sendOperation ⟨0⟩, .deliverRequest 0,
          .dropResponse 0, .promoteLossless 2]).server.appliedOperations ∧
      (final (step fun _ => Vector.replicate 32 0) (Model.new 1)
        [.localMutate ⟨0⟩ ⟨⟨0⟩, ⟨0⟩, ⟨0⟩, none, 7⟩, .sendOperation ⟨0⟩, .deliverRequest 0,
          .dropResponse 0, .promoteLossless 2]).server.operationCorrelations[
            (⟨0⟩ : ModelOperationId)]? = some ⟨0⟩ :=
  (no_lost_intent (fun _ => Vector.replicate 32 0) 1
    [.localMutate ⟨0⟩ ⟨⟨0⟩, ⟨0⟩, ⟨0⟩, none, 7⟩, .sendOperation ⟨0⟩, .deliverRequest 0,
      .dropResponse 0, .promoteLossless 2]
    (by decide +kernel) (by decide +kernel) _ [] (by simp) ⟨0⟩ ⟨⟨0⟩, ⟨0⟩, ⟨0⟩, none, 7⟩
    (by decide +kernel)).1

end Runs

end Aequora.SyncModel
