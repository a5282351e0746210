import Aequora.SyncModel.Transition

/-! Everything one action can do, said once. Each constructor of `Effect` is one way
`apply_unchecked` can return, so invariants are proved by cases on it and never unfold a transition.
-/

namespace Aequora.SyncModel

open Std Aequora.Base ServerModel

/-- How the authority answers a request that passed every admission check. -/
inductive Served (server : ServerModel) :
    Option ModelOperation → ServerModel → Option (ModelOperationId × ModelOutcome) → Prop where
  | pulled : Served server none server none
  | retried {outcome : ModelOutcome}
      (recorded : server.appliedOperations[operation.id]? = some outcome)
      (lineage : server.operationCorrelations[operation.id]? = some operation.correlationId) :
      Served server (some operation) server (some (operation.id, outcome))
  | conflicted
      (fresh : server.appliedOperations[operation.id]? = none)
      (stale : server.currentVersion operation.entity ≠ operation.expectedVersion) :
      Served server (some operation)
        (server.record operation (.conflict (server.currentVersion operation.entity)))
        (some (operation.id, .conflict (server.currentVersion operation.entity)))
  | committed {version : Nat}
      (fresh : server.appliedOperations[operation.id]? = none)
      (current : server.currentVersion operation.entity = operation.expectedVersion)
      (next : version = saturatingAdd ((server.currentVersion operation.entity).getD 0) 1) :
      Served server (some operation)
        ((server.publish operation version).record operation (.accepted server.nextSequence version))
        (some (operation.id, .accepted server.nextSequence version))

/-- How a promotion to another instance ends. -/
inductive Promoted (server : ServerModel) (newInstance : UInt8) :
    ModelAction → ServerModel → Except ActionError Unit → Prop where
  | fenceExhausted (full : u64Max ≤ server.fenceToken) :
      Promoted server newInstance action (server.fence newInstance) (.error .fenceExhausted)
  | lossless (room : server.fenceToken < u64Max) :
      Promoted server newInstance (.promoteLossless newInstance)
        ({ server.fence newInstance with fenceToken := server.fenceToken + 1 }.concludePromotion
          server.authorityEpoch true) (.ok ())
  | epochExhausted (room : server.fenceToken < u64Max)
      (full : u64Max ≤ server.authorityEpoch) :
      Promoted server newInstance (.promoteWithDataLoss newInstance retainThrough)
        ({ server.fence newInstance with fenceToken := server.fenceToken + 1 }.truncate retainThrough)
        (.error .authorityEpochExhausted)
  | dataLoss (room : server.fenceToken < u64Max)
      (below : server.authorityEpoch < u64Max) :
      Promoted server newInstance (.promoteWithDataLoss newInstance retainThrough)
        ({ ({ server.fence newInstance with fenceToken := server.fenceToken + 1 }.truncate
            retainThrough) with
            authorityEpoch := server.authorityEpoch + 1
            writesEnabled := false }.concludePromotion server.authorityEpoch false) (.ok ())

/-- One way an action can return from a model, with the model it leaves. -/
inductive Effect (model : Model) : ModelAction → Model → Except ActionError Unit → Prop where
  | refused {error : ActionError} : Effect model action model (.error error)
  | mutated {operation : ModelOperation} {client : ClientModel}
      (found : model.clients[clientId]? = some client)
      (fresh : ∀ pending ∈ client.outbox, pending.id ≠ operation.id)
      (expected : operation.expectedVersion =
        client.authoritativeState[operation.entity]?.map CanonicalEntity.version) :
      Effect model (.localMutate clientId operation)
        (model.setClient clientId (client.mutate operation operation.expectedVersion)) (.ok ())
  | sent {client : ClientModel} {operation : ModelOperation}
      (found : model.clients[clientId]? = some client)
      (front : client.outbox.head? = some operation)
      (clear : operation.id ∉ client.ambiguousOldEpoch) :
      Effect model (.sendOperation clientId)
        ((model.pushRequest (model.request clientId client (some operation))).setClient clientId
          (client.markSent operation.id)) (.ok ())
  | pulled {client : ClientModel}
      (found : model.clients[clientId]? = some client) :
      Effect model (.pull clientId)
        (model.pushRequest (model.request clientId client none)) (.ok ())
  | duplicated {request : ModelRequest}
      (present : model.network.requests[index]? = some request) :
      Effect model (.duplicateRequest index) (model.pushRequest request) (.ok ())
  | requestLost {error : ActionError} :
      Effect model (.deliverRequest index)
        (model.withRequests (model.network.requests.eraseIdx index)) (.error error)
  | served {request : ModelRequest} {server : ServerModel}
      {outcome : Option (ModelOperationId × ModelOutcome)}
      (present : model.network.requests[index]? = some request)
      (fenced : request.operation.isSome →
        model.server.writesEnabled = true ∧
        request.authorityInstance = model.server.authorityInstance ∧
        request.fenceToken = model.server.fenceToken)
      (epoch : request.authorityEpoch = model.server.authorityEpoch)
      (answered : Served model.server request.operation server outcome) :
      Effect model (.deliverRequest index)
        (((model.withRequests (model.network.requests.eraseIdx index)).withServer server).pushResponse
          (server.respond request outcome)) (.ok ())
  | responseDropped :
      Effect model (.dropResponse index)
        (model.withResponses (model.network.responses.eraseIdx index)) (.ok ())
  | responseLost {error : ActionError} :
      Effect model (.deliverResponse index)
        (model.withResponses (model.network.responses.eraseIdx index)) (.error error)
  | interrupted {response : ModelResponse} {client applied : ClientModel}
      {error : ActionError} (present : model.network.responses[index]? = some response)
      (found : model.clients[response.client]? = some client)
      (epoch : client.cursorEpoch = response.authorityEpoch)
      (gap : client.applyChanges response.changes = (applied, .error error)) :
      Effect model (.deliverResponse index)
        ((model.withResponses (model.network.responses.eraseIdx index)).setClient
          response.client applied) (.error error)
  | reconciled {response : ModelResponse} {client applied : ClientModel}
      (present : model.network.responses[index]? = some response)
      (found : model.clients[response.client]? = some client)
      (epoch : client.cursorEpoch = response.authorityEpoch)
      (complete : client.applyChanges response.changes = (applied, .ok ())) :
      Effect model (.deliverResponse index)
        ((model.withResponses (model.network.responses.eraseIdx index)).setClient
          response.client (applied.reconcile response.outcome)) (.ok ())
  | clientFlagged {clientId : ClientId} {client : ClientModel} {crashed : Bool}
      (chosen : action = if crashed then .crashClient clientId else .restartClient clientId)
      (found : model.clients[clientId]? = some client) :
      Effect model action (model.setClient clientId { client with crashed }) (.ok ())
  | serverFlagged {crashed : Bool}
      (chosen : action = if crashed then .crashServer else .restartServer) :
      Effect model action (model.withServer { model.server with crashed }) (.ok ())
  | networkFlagged {connected : Bool}
      (chosen : action = if connected then .reconnectNetwork else .disconnectNetwork) :
      Effect model action
        { model with network := { model.network with connected } } (.ok ())
  | promoted {newInstance : UInt8} {server : ServerModel}
      {result : Except ActionError Unit}
      (chosen : action = .promoteLossless newInstance ∨
        ∃ retainThrough, action = .promoteWithDataLoss newInstance retainThrough)
      (other : newInstance ≠ model.server.authorityInstance)
      (ended : Promoted model.server newInstance action server result) :
      Effect model action (model.withServer server) result
  | rebootstrapped {client : ClientModel}
      (found : model.clients[clientId]? = some client) :
      Effect model (.rebootstrapClient clientId)
        (model.setClient clientId (model.server.bootstrap client)) (.ok ())
  | resolved {operationId : ModelOperationId} {safeReplay : Bool}
      {client : ClientModel} (found : model.clients[clientId]? = some client)
      (ambiguous : operationId ∈ client.ambiguousOldEpoch) :
      Effect model (.resolveAmbiguous clientId operationId safeReplay)
        (model.setClient clientId (client.resolve operationId safeReplay)) (.ok ())
  | agreed : Effect model (.detectFork peerRoot) model (.ok ())
  | quarantined :
      Effect model (.detectFork peerRoot)
        (model.withServer { model.server with forkQuarantined := true, writesEnabled := false }) (.ok ())
  | recovered (trusted : model.server.forkQuarantined = false) :
      Effect model .completeAuthorityRecovery
        (model.withServer { model.server with writesEnabled := true }) (.ok ())

/-- Both authorities hold the same epoch, fence and recovery state. -/
structure SameAuthority (server next : ServerModel) : Prop where
  authorityEpoch : next.authorityEpoch = server.authorityEpoch
  authorityInstance : next.authorityInstance = server.authorityInstance
  fenceToken : next.fenceToken = server.fenceToken
  fencedInstances : next.fencedInstances = server.fencedInstances
  writesEnabled : next.writesEnabled = server.writesEnabled
  forkQuarantined : next.forkQuarantined = server.forkQuarantined
  lastTransition : next.lastTransition = server.lastTransition

theorem Served.sameAuthority (answered : Served server operation next outcome) : SameAuthority server next := by
  cases answered <;> exact ⟨rfl, rfl, rfl, rfl, rfl, rfl, rfl⟩

private theorem checkedRemove_ok (removed : checkedRemove items index error = .ok (item, rest)) :
    items[index]? = some item ∧ rest = items.eraseIdx index := by
  unfold checkedRemove at removed
  split at removed
  · cases Except.ok.inj removed
    exact ⟨‹_›, rfl⟩
  · cases removed

/-- The transition is one way the action can return. -/
def Model.Allows (model : Model) (action : ModelAction) (taken : Transition) : Prop :=
  Effect model action taken.1 taken.2

section
variable {model : Model}

theorem Model.localMutate_effect :
    model.Allows (.localMutate clientId operation) (model.localMutate clientId operation) := by
  unfold localMutate
  split
  · exact .refused
  · rename_i client found
    split
    · exact .refused
    split
    · exact .refused
    rename_i unused
    dsimp only
    split
    · exact .refused
    rename_i expected
    have expected := Decidable.not_not.mp expected
    rw [← expected]
    refine .mutated found (fun pending member same => unused ?_) expected
    exact List.any_eq_true.mpr ⟨pending, member, by simp [same]⟩

theorem Model.send_effect (chosen : action = if withOperation then .sendOperation clientId else .pull clientId) :
    model.Allows action (model.send clientId withOperation) := by
  unfold send
  split
  · exact .refused
  split
  · exact .refused
  · rename_i client found
    split
    · exact .refused
    cases withOperation with
    | false =>
      subst chosen
      exact .pulled found
    | true =>
      subst chosen
      simp only [↓reduceIte]
      split
      · exact .refused
      · rename_i operation front
        split
        · exact .refused
        · exact .sent found front ‹_›

theorem ServerModel.execute_served (executed : server.execute operation = .ok (outcome, next)) :
    Served server (some operation) next (some (operation.id, outcome)) := by
  unfold execute at executed
  split at executed
  · rename_i recorded
    split at executed
    · cases executed
    · rename_i lineage
      cases Except.ok.inj executed
      exact .retried recorded (Decidable.not_not.mp lineage)
  · rename_i fresh
    dsimp only at executed
    split at executed
    · rename_i current
      cases Except.ok.inj executed
      exact .committed fresh current rfl
    · rename_i stale
      cases Except.ok.inj executed
      exact .conflicted fresh stale

theorem Model.deliverRequest_effect : model.Allows (.deliverRequest index) (model.deliverRequest index) := by
  unfold deliverRequest
  split
  · exact .refused
  split
  · exact .refused
  split
  · exact .refused
  · rename_i request requests removed
    obtain ⟨present, rfl⟩ := checkedRemove_ok removed
    split
    · exact .requestLost
    rename_i writable
    split
    · exact .requestLost
    rename_i current
    split
    · exact .requestLost
    rename_i epoch
    have epoch := Decidable.not_not.mp epoch
    have fenced : request.operation.isSome →
        model.server.writesEnabled = true ∧
        request.authorityInstance = model.server.authorityInstance ∧
        request.fenceToken = model.server.fenceToken := by
      intro operation
      simpa [operation] using And.intro writable current
    split
    · rename_i pull
      exact .served present fenced epoch (pull ▸ .pulled)
    · rename_i operation chosen
      split
      · exact .requestLost
      · rename_i executed
        exact .served present fenced epoch (chosen ▸ execute_served executed)

theorem Model.deliverResponse_effect : model.Allows (.deliverResponse index) (model.deliverResponse index) := by
  unfold deliverResponse
  split
  · exact .refused
  split
  · exact .refused
  · rename_i response responses removed
    obtain ⟨present, rfl⟩ := checkedRemove_ok removed
    split
    · exact .responseLost
    · rename_i client found
      split
      · exact .responseLost
      split
      · exact .responseLost
      rename_i epoch
      have epoch := Decidable.not_not.mp epoch
      split
      · exact .interrupted present found epoch ‹_›
      · exact .reconciled present found epoch ‹_›

/-- Continuity is proven exactly when no history is cut. -/
theorem Model.promote_effect {retainThrough : Option Nat}
    (chosen : action = retainThrough.elim (.promoteLossless newInstance) (.promoteWithDataLoss newInstance)) :
    model.Allows action (model.promote newInstance retainThrough.isNone retainThrough) := by
  unfold promote ServerModel.promote
  split
  · exact .refused
  · rename_i other
    cases added : checkedAdd model.server.fenceToken 1 with
    | none =>
      refine .promoted ?_ other (.fenceExhausted (Nat.le_of_lt_succ (checkedAdd_eq_none.mp added)))
      cases retainThrough with
      | none => exact .inl chosen
      | some _ => exact .inr ⟨_, chosen⟩
    | some _ =>
      obtain ⟨rfl, room⟩ := checkedAdd_eq_some.mp added
      subst chosen
      cases retainThrough with
      | none => exact .promoted (.inl rfl) other (.lossless room)
      | some _ =>
        refine .promoted (.inr ⟨_, rfl⟩) other ?_
        cases advanced : checkedAdd model.server.authorityEpoch 1 with
        | none =>
          simp only [advanced, Option.isNone_some, Bool.not_false, ↓reduceIte]
          exact .epochExhausted room (Nat.le_of_lt_succ (checkedAdd_eq_none.mp advanced))
        | some _ =>
          simp only [advanced, Option.isNone_some, Bool.not_false, ↓reduceIte]
          obtain ⟨rfl, below⟩ := checkedAdd_eq_some.mp advanced
          exact .dataLoss room below

theorem Model.setCrashed_effect {crashed : Bool}
    (chosen : action = if crashed then .crashClient clientId else .restartClient clientId) :
    model.Allows action (model.setCrashed clientId crashed) := by
  unfold setCrashed
  split
  · exact .refused
  · exact .clientFlagged chosen ‹_›

end

section
variable (effect : Effect model action next result)
include effect

theorem Effect.authorityEpoch_le : model.server.authorityEpoch ≤ next.server.authorityEpoch := by
  cases effect with
  | served _ _ _ answered => exact answered.sameAuthority.authorityEpoch.ge
  | promoted _ _ ended =>
    cases ended with
    | dataLoss => exact Nat.le_succ _
    | _ => exact le_rfl
  | _ => exact le_rfl

/-- A response in flight after an action was in flight before it or answers a request. -/
theorem Effect.response {response : ModelResponse}
    (member : response ∈ next.network.responses) :
    response ∈ model.network.responses ∨
      ∃ request ∈ model.network.requests, ∃ outcome,
        request.authorityEpoch = model.server.authorityEpoch ∧
        Served model.server request.operation next.server outcome ∧
        response = next.server.respond request outcome := by
  cases effect with
  | @served _ request _ outcome present _ epoch answered =>
    rcases List.mem_append.mp member with earlier | added
    · exact .inl earlier
    · exact .inr ⟨request, List.mem_of_getElem? present, outcome, epoch, answered,
        List.mem_singleton.mp added⟩
  | responseDropped => exact .inl (List.mem_of_mem_eraseIdx member)
  | responseLost => exact .inl (List.mem_of_mem_eraseIdx member)
  | interrupted => exact .inl (List.mem_of_mem_eraseIdx member)
  | reconciled => exact .inl (List.mem_of_mem_eraseIdx member)
  | _ => exact .inl member

/-- A request in flight after an action was in flight before it or was just sent by its client. -/
theorem Effect.request {request : ModelRequest}
    (member : request ∈ next.network.requests) :
    request ∈ model.network.requests ∨
      ∃ client operation, model.clients[request.client]? = some client ∧
        request = model.request request.client client operation ∧
        ∀ carried, operation = some carried → action = .sendOperation request.client ∧
          client.outbox.head? = some carried ∧ carried.id ∉ client.ambiguousOldEpoch := by
  cases effect with
  | @sent clientId client operation found front clear =>
    rcases List.mem_append.mp member with earlier | added
    · exact .inl earlier
    · cases List.mem_singleton.mp added
      refine .inr ⟨client, some operation, found, rfl, fun carried same => ?_⟩
      cases same
      exact ⟨rfl, front, clear⟩
  | @pulled _ client found =>
    rcases List.mem_append.mp member with earlier | added
    · exact .inl earlier
    · cases List.mem_singleton.mp added
      exact .inr ⟨client, none, found, rfl, by simp⟩
  | duplicated present =>
    rcases List.mem_append.mp member with earlier | added
    · exact .inl earlier
    · cases List.mem_singleton.mp added
      exact .inl (List.mem_of_getElem? present)
  | requestLost => exact .inl (List.mem_of_mem_eraseIdx member)
  | served => exact .inl (List.mem_of_mem_eraseIdx member)
  | _ => exact .inl member

end

variable (blake3 : List UInt8 → Vector UInt8 32)

theorem Model.applyUnchecked_effect (model : Model) (action : ModelAction) :
    Effect model action (model.applyUnchecked blake3 action).1
      (model.applyUnchecked blake3 action).2 := by
  cases action with
  | localMutate => exact localMutate_effect
  | sendOperation => exact @send_effect _ _ true _ rfl
  | pull => exact @send_effect _ _ false _ rfl
  | duplicateRequest =>
    simp only [applyUnchecked, Model.duplicateRequest]
    split
    · exact .refused
    · exact .duplicated ‹_›
  | deliverRequest => exact deliverRequest_effect
  | dropResponse =>
    simp only [applyUnchecked, Model.dropResponse]
    split
    · exact .refused
    · rename_i removed
      obtain ⟨_, rfl⟩ := checkedRemove_ok removed
      exact .responseDropped
  | deliverResponse => exact deliverResponse_effect
  | crashClient => exact @setCrashed_effect _ _ _ true rfl
  | restartClient => exact @setCrashed_effect _ _ _ false rfl
  | crashServer => exact .serverFlagged rfl
  | restartServer => exact .serverFlagged rfl
  | disconnectNetwork => exact .networkFlagged rfl
  | reconnectNetwork => exact .networkFlagged rfl
  | promoteLossless => exact @promote_effect _ _ _ none rfl
  | promoteWithDataLoss _ retainThrough => exact @promote_effect _ _ _ (some retainThrough) rfl
  | rebootstrapClient =>
    simp only [applyUnchecked, Model.rebootstrapClient]
    split
    · exact .refused
    · exact .rebootstrapped ‹_›
  | resolveAmbiguous =>
    simp only [applyUnchecked, Model.resolveAmbiguous]
    split
    · exact .refused
    · rename_i client found
      split
      · exact .refused
      · exact .resolved found (Decidable.not_not.mp ‹_›)
  | detectFork =>
    simp only [applyUnchecked, Model.detectFork]
    split
    · exact .quarantined
    · exact .agreed
  | completeAuthorityRecovery =>
    simp only [applyUnchecked, Model.completeAuthorityRecovery]
    split
    · exact .refused
    · rename_i trusted
      exact .recovered (by simpa using trusted)

theorem Model.step_effect (model : Model) (action : ModelAction) :
    ∃ result, Effect model action (model.step blake3 action) result :=
  ⟨_, model.applyUnchecked_effect blake3 action⟩

theorem Model.step_effect_of_accepts (accepted : model.Accepts blake3 action) :
    Effect model action (model.step blake3 action) (.ok ()) := by
  have effect := model.applyUnchecked_effect blake3 action
  rwa [accepted] at effect

end Aequora.SyncModel
