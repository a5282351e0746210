import Aequora.Base.Run
import Aequora.SyncModel.ClientChange
import Aequora.SyncModel.History

/-! Where operations come from: every operation pending, carried or recorded was accepted by an
earlier local mutation of one client. -/

namespace Aequora.SyncModel

open Std Aequora.Base ServerModel ClientModel Run

def ModelAction.mutationOf : ModelAction → Except ActionError Unit → List (ClientId × ModelOperation)
  | .localMutate clientId operation, .ok () => [(clientId, operation)]
  | _, _ => []

theorem Effect.localMutate (effect : Effect model (.localMutate clientId operation) next result) :
    next = model ∧ result ≠ .ok () ∨ result = .ok () ∧
      ∃ client : ClientModel, next = model.setClient clientId (client.mutate operation operation.expectedVersion) := by
  cases effect with
  | refused => exact .inl ⟨rfl, nofun⟩
  | @mutated _ _ client => exact .inr ⟨rfl, client, rfl⟩
  | @clientFlagged _ _ _ crashed flag => cases crashed <;> cases flag
  | @serverFlagged _ crashed flag => cases crashed <;> cases flag
  | @networkFlagged _ connected flag => cases connected <;> cases flag
  | promoted promotion => rcases promotion with impossible | ⟨_, impossible⟩ <;> cases impossible

theorem Effect.outbox (effect : Effect model action next result) (found : next.clients[clientId]? = some after)
    (member : operation ∈ after.outbox) :
    (∃ before, model.clients[clientId]? = some before ∧ operation ∈ before.outbox) ∨
      (clientId, operation) ∈ action.mutationOf result := by
  obtain ⟨before, present, change⟩ := effect.clientChange found
  cases change with
  | @mutated _ chosen =>
    rcases List.mem_append.mp member with earlier | new
    · exact .inl ⟨before, present, earlier⟩
    · cases List.mem_singleton.mp new
      subst chosen
      rcases effect.localMutate with ⟨rfl, _⟩ | ⟨rfl, _⟩
      · exact .inl ⟨_, found, member⟩
      · exact .inr List.mem_cons_self
  | interrupted _ _ _ gap =>
    rw [(applyChanges_sameIntent gap).outbox] at member
    exact .inl ⟨before, present, member⟩
  | reconciled _ _ _ complete =>
    rw [reconcile_outbox, (applyChanges_sameIntent complete).outbox] at member
    exact .inl ⟨before, present, List.mem_of_mem_filter member⟩
  | @resolved _ safeReplay =>
    refine .inl ⟨before, present, ?_⟩
    cases safeReplay with
    | true => exact member
    | false => exact List.mem_of_mem_filter member
  | _ => exact .inl ⟨_, present, member⟩

variable {operationId : ModelOperationId}

theorem ServerModel.truncate_ledger {server : ServerModel}
    (entry : (server.truncate retainThrough).appliedOperations[operationId]? = some outcome) :
    server.appliedOperations[operationId]? = some outcome ∧
      (server.truncate retainThrough).operationCorrelations[operationId]? =
        server.operationCorrelations[operationId]? := by
  obtain ⟨recorded, retained⟩ := truncate_appliedOperations.mp entry
  refine ⟨recorded, ?_⟩
  ext correlation
  rw [truncate_operationCorrelations]
  exact and_iff_left retained

/-- Serving a request records at most the operation it carries, with that operation's lineage. -/
theorem Served.ledger (answered : Served server operation next answer)
    (entry : next.appliedOperations[operationId]? = some outcome) :
    server.appliedOperations[operationId]? = some outcome ∧
        next.operationCorrelations[operationId]? = server.operationCorrelations[operationId]? ∨
      ∃ carried, operation = some carried ∧ carried.id = operationId ∧
        server.appliedOperations[operationId]? = none ∧
        next.operationCorrelations[operationId]? = some carried.correlationId := by
  cases answered with
  | pulled => exact .inl ⟨entry, rfl⟩
  | retried => exact .inl ⟨entry, rfl⟩
  | @conflicted carried fresh | @committed carried _ fresh =>
    simp only [record, publish, lookup_insert] at entry ⊢
    by_cases same : carried.id = operationId
    · subst operationId
      exact .inr ⟨carried, rfl, rfl, fresh, by simp⟩
    · exact .inl ⟨by simpa [same] using entry, by simp [same]⟩

/-- The request would pass the authority's fence and epoch checks. -/
def ModelRequest.Live (request : ModelRequest) (server : ServerModel) : Prop :=
  request.fenceToken = server.fenceToken ∧ request.authorityEpoch = server.authorityEpoch

instance (request : ModelRequest) (server : ServerModel) : Decidable (request.Live server) :=
  inferInstanceAs (Decidable (_ ∧ _))

/-- A ledger entry after an action was there before it with the same lineage, or was made by
serving a live request for an operation the ledger did not know. -/
theorem Effect.ledger (effect : Effect model action next result)
    (entry : next.server.appliedOperations[operationId]? = some outcome) :
    model.server.appliedOperations[operationId]? = some outcome ∧
        next.server.operationCorrelations[operationId]? =
          model.server.operationCorrelations[operationId]? ∨
      ∃ request ∈ model.network.requests, ∃ operation, request.operation = some operation ∧
        operation.id = operationId ∧ request.Live model.server ∧
        model.server.appliedOperations[operationId]? = none ∧
        next.server.operationCorrelations[operationId]? = some operation.correlationId := by
  cases effect with
  | served present fenced epoch answered =>
    rcases answered.ledger entry with kept | ⟨carried, chosen, rest⟩
    · exact .inl kept
    · have live := (fenced (by simp [chosen])).2.2
      exact .inr ⟨_, List.mem_of_getElem? present, carried, chosen, rest.1, ⟨live, epoch⟩, rest.2⟩
  | promoted _ _ ended =>
    cases ended with
    | fenceExhausted => exact .inl ⟨entry, rfl⟩
    | lossless => exact .inl ⟨entry, rfl⟩
    | epochExhausted => exact .inl (truncate_ledger entry)
    | dataLoss => exact .inl (truncate_ledger entry)
  | _ => exact .inl ⟨entry, rfl⟩

/-- Every operation in the system goes back to an accepted local mutation. -/
structure Model.Owned (model : Model) (mutations : List (ClientId × ModelOperation)) : Prop where
  pending : ∀ clientId client, model.clients[clientId]? = some client →
    ∀ operation ∈ client.outbox, (clientId, operation) ∈ mutations
  requested : ∀ request ∈ model.network.requests, ∀ operation, request.operation = some operation →
    (request.client, operation) ∈ mutations
  recorded : ∀ operationId outcome,
    model.server.appliedOperations[operationId]? = some outcome →
      ∃ clientId operation, (clientId, operation) ∈ mutations ∧ operation.id = operationId ∧
        model.server.operationCorrelations[operationId]? = some operation.correlationId

theorem Model.Owned.initial (clientCount : UInt8) : (Model.new clientCount).Owned [] where
  pending clientId client found operation member := by
    rw [new_clients found] at member
    cases member
  requested request member := by simp [Model.new, NetworkModel.default] at member
  recorded operationId outcome entry := by simp [Model.new, ServerModel.default] at entry

theorem Model.Owned.step (owned : model.Owned mutations) (effect : Effect model action next result) :
    next.Owned (mutations ++ action.mutationOf result) where
  pending clientId after found operation member := by
    rcases effect.outbox found member with ⟨before, present, earlier⟩ | created
    · exact List.mem_append_left _ (owned.pending clientId before present operation earlier)
    · exact List.mem_append_right _ created
  requested request member operation carried := by
    rcases effect.request member with earlier | ⟨client, _, found, created, front⟩
    · exact List.mem_append_left _ (owned.requested request earlier operation carried)
    · rw [created] at carried
      obtain ⟨-, head, -⟩ := front operation carried
      exact List.mem_append_left _
        (owned.pending request.client client found operation (List.mem_of_mem_head? head))
  recorded operationId outcome entry := by
    rcases effect.ledger entry with ⟨earlier, same⟩ |
      ⟨request, member, operation, carried, chosen, -, -, lineage⟩
    · obtain ⟨clientId, operation, mutated, chosen, lineage⟩ :=
        owned.recorded operationId outcome earlier
      exact ⟨clientId, operation, List.mem_append_left _ mutated, chosen, same.trans lineage⟩
    · exact ⟨request.client, operation,
        List.mem_append_left _ (owned.requested request member operation carried), chosen, lineage⟩

section Runs
variable (blake3 : List UInt8 → Vector UInt8 32)

def Model.mutations (model : Model) (action : ModelAction) : List (ClientId × ModelOperation) :=
  action.mutationOf (model.applyUnchecked blake3 action).2

section
variable (clientCount : UInt8) (actions : List ModelAction)

def acceptedMutations : List (ClientId × ModelOperation) :=
  trace (Model.step blake3) (Model.mutations blake3) (Model.new clientCount) actions

/-- No two accepted local mutations of the run use the same operation identity. -/
def DistinctMutations : Prop :=
  ((acceptedMutations blake3 clientCount actions).map fun mutation => mutation.2.id).Nodup

end

instance (clientCount : UInt8) (actions : List ModelAction) :
    Decidable (DistinctMutations blake3 clientCount actions) :=
  inferInstanceAs (Decidable (List.Nodup _))

theorem Model.owned_of_run (clientCount : UInt8) (actions : List ModelAction) :
    (final (step blake3) (Model.new clientCount) actions).Owned
      (acceptedMutations blake3 clientCount actions) :=
  invariant_with_trace (.initial clientCount)
    (fun before action _ _ owned => owned.step
      (applyUnchecked_effect blake3 (final (step blake3) (Model.new clientCount) before)
        action)) actions [] actions.append_nil.symm

variable {blake3}

theorem DistinctMutations.unique (distinct : DistinctMutations blake3 clientCount actions)
    (leftMember : left ∈ acceptedMutations blake3 clientCount actions)
    (rightMember : right ∈ acceptedMutations blake3 clientCount actions)
    (same : left.2.id = right.2.id) : left = right :=
  List.inj_on_of_nodup_map distinct leftMember rightMember same

theorem acceptedMutations_append (clientCount : UInt8) (before after : List ModelAction) :
    acceptedMutations blake3 clientCount before <+: acceptedMutations blake3 clientCount (before ++ after) := by
  unfold acceptedMutations
  rw [trace_append]
  exact List.prefix_append _ _

end Runs

end Aequora.SyncModel
