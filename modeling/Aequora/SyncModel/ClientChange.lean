import Aequora.SyncModel.Effect

/-! What one action can do to one client, and what the change loop of a response
can do to the client that reconciles it. -/

namespace Aequora.SyncModel

open Std Aequora.Base ClientModel

/-- One way an action can leave a client. -/
inductive ClientChange (model : Model) (action : ModelAction) (clientId : ClientId)
    (client : ClientModel) : ClientModel → Prop where
  | kept : ClientChange model action clientId client client
  | flagged {crashed : Bool} :
      ClientChange model action clientId client { client with crashed }
  | mutated (chosen : action = .localMutate clientId operation)
      (fresh : ∀ pending ∈ client.outbox, pending.id ≠ operation.id)
      (expected : operation.expectedVersion =
        client.authoritativeState[operation.entity]?.map CanonicalEntity.version) :
      ClientChange model action clientId client (client.mutate operation operation.expectedVersion)
  | sent (chosen : action = .sendOperation clientId)
      (front : client.outbox.head? = some operation)
      (clear : operation.id ∉ client.ambiguousOldEpoch) :
      ClientChange model action clientId client (client.markSent operation.id)
  | interrupted {applied : ClientModel} {error : ActionError}
      (member : response ∈ model.network.responses) (mine : response.client = clientId)
      (epoch : client.cursorEpoch = response.authorityEpoch)
      (gap : client.applyChanges response.changes = (applied, .error error)) :
      ClientChange model action clientId client applied
  | reconciled {applied : ClientModel}
      (member : response ∈ model.network.responses) (mine : response.client = clientId)
      (epoch : client.cursorEpoch = response.authorityEpoch)
      (complete : client.applyChanges response.changes = (applied, .ok ())) :
      ClientChange model action clientId client (applied.reconcile response.outcome)
  | rebootstrapped (chosen : action = .rebootstrapClient clientId) :
      ClientChange model action clientId client (model.server.bootstrap client)
  | resolved {safeReplay : Bool}
      (chosen : action = .resolveAmbiguous clientId operationId safeReplay)
      (ambiguous : operationId ∈ client.ambiguousOldEpoch) :
      ClientChange model action clientId client (client.resolve operationId safeReplay)

private theorem setClient_change (present : model.clients[clientId]? = some before)
    (change : ClientChange model action clientId before after)
    (lookup : (if clientId = other then some after else model.clients[other]?) = some found) :
    ∃ client, model.clients[other]? = some client ∧ ClientChange model action other client found := by
  split at lookup
  · rename_i same
    subst other
    cases lookup
    exact ⟨before, present, change⟩
  · exact ⟨found, lookup, .kept⟩

theorem Effect.clientChange (effect : Effect model action next result) (found : next.clients[clientId]? = some after) :
    ∃ before, model.clients[clientId]? = some before ∧
      ClientChange model action clientId before after := by
  cases effect with
  | mutated present fresh expected =>
    exact setClient_change present (.mutated rfl fresh expected) (by simpa using found)
  | sent present front clear =>
    refine setClient_change present (.sent rfl front clear) ?_
    rwa [Model.setClient_clients] at found
  | interrupted received present epoch gap =>
    refine setClient_change present (.interrupted (List.mem_of_getElem? received) rfl epoch gap) ?_
    rwa [Model.setClient_clients] at found
  | reconciled received present epoch complete =>
    refine setClient_change present (.reconciled (List.mem_of_getElem? received) rfl epoch complete) ?_
    rwa [Model.setClient_clients] at found
  | clientFlagged _ present => exact setClient_change present .flagged (by simpa using found)
  | rebootstrapped present =>
    exact setClient_change present (.rebootstrapped rfl) (by simpa using found)
  | resolved present ambiguous =>
    exact setClient_change present (.resolved rfl ambiguous) (by simpa using found)
  | _ => exact ⟨after, found, .kept⟩

variable {client : ClientModel}

theorem ClientModel.applyChanges_induction {motive : ClientModel → Prop} (start : motive client)
    (apply : ∀ current event, event ∈ changes → event.sequence = current.cursor + 1 →
      motive current → motive (current.applyEvent event)) :
    motive (client.applyChanges changes).1 := by
  induction changes generalizing client with
  | nil => exact start
  | cons event rest ih =>
    have later : ∀ current following, following ∈ rest → following.sequence = current.cursor + 1 →
        motive current → motive (current.applyEvent following) := fun current following member =>
      apply current following (List.mem_cons_of_mem event member)
    rw [applyChanges]
    split
    · exact ih start later
    · rename_i ahead
      dsimp only
      split
      · exact start
      · rename_i expected
        -- A saturated successor would not lie beyond the cursor.
        have following : event.sequence = client.cursor + 1 := by
          rcases saturatingAdd_one_cases client.cursor with _ | ⟨_, _⟩ <;> omega
        exact ih (apply client event List.mem_cons_self following start) later

/-- The change loop only touches the reconciled state, the cursor and the applied events. -/
structure SameIntent (client applied : ClientModel) : Prop where
  optimisticState : applied.optimisticState = client.optimisticState
  outbox : applied.outbox = client.outbox
  possiblySent : applied.possiblySent = client.possiblySent
  ambiguousOldEpoch : applied.ambiguousOldEpoch = client.ambiguousOldEpoch
  cursorEpoch : applied.cursorEpoch = client.cursorEpoch

theorem ClientModel.applyChanges_sameIntent {applied : ClientModel}
    (ended : client.applyChanges changes = (applied, result)) : SameIntent client applied := by
  have kept : SameIntent client (client.applyChanges changes).1 :=
    applyChanges_induction ⟨rfl, rfl, rfl, rfl, rfl⟩
      fun _ _ _ _ same => ⟨same.1, same.2, same.3, same.4, same.5⟩
  rwa [ended] at kept

section
variable (client) (outcome : Option (ModelOperationId × ModelOutcome))

namespace ClientModel

theorem reconcile_outbox : (client.reconcile outcome).outbox =
      client.outbox.filter fun operation => !outcome.any fun settled => settled.1 == operation.id := by
  cases outcome with
  | none => simp [reconcile, rebuildOverlay]
  | some _ =>
    simp only [reconcile, rebuildOverlay, settle, Option.any_some]
    refine List.filter_congr fun operation _ => ?_
    rw [Bool.beq_comm]
    rfl

@[simp] theorem reconcile_authoritativeState :
    (client.reconcile outcome).authoritativeState = client.authoritativeState := by
  cases outcome <;> rfl

@[simp] theorem reconcile_cursor : (client.reconcile outcome).cursor = client.cursor := by
  cases outcome <;> rfl

@[simp] theorem reconcile_cursorEpoch : (client.reconcile outcome).cursorEpoch = client.cursorEpoch := by
  cases outcome <;> rfl

@[simp] theorem reconcile_appliedEvents : (client.reconcile outcome).appliedEvents = client.appliedEvents := by
  cases outcome <;> rfl

end ClientModel

end

theorem ServerModel.mem_bootstrap_ambiguous {server : ServerModel} :
    operationId ∈ (server.bootstrap client).ambiguousOldEpoch ↔
      operationId ∈ client.possiblySent ∧ ∃ pending ∈ client.outbox, pending.id = operationId := by
  simp [bootstrap, rebuildOverlay]

theorem ClientChange.cursorEpoch_le (change : ClientChange model action clientId client after)
    (trusted : client.cursorEpoch ≤ model.server.authorityEpoch) :
    after.cursorEpoch ≤ model.server.authorityEpoch := by
  cases change with
  | interrupted _ _ _ gap =>
    rw [(applyChanges_sameIntent gap).cursorEpoch]; exact trusted
  | reconciled _ _ _ complete =>
    rw [reconcile_cursorEpoch, (applyChanges_sameIntent complete).cursorEpoch]
    exact trusted
  | rebootstrapped => exact le_rfl
  | _ => exact trusted

end Aequora.SyncModel
