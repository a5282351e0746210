import Aequora.Base.Replay
import Aequora.SyncModel.State
import Mathlib.Data.Finset.Erase

/-! Transitions of the executable model, method by method. A method that takes `&mut self` returns
the state it leaves with its result, so an error keeps the changes made before it. -/

namespace Aequora.SyncModel

open Std Aequora.Base

/-- Error indicating an action whose preconditions are not met. -/
inductive ActionError where
  | unknownClient (client : ClientId)
  | clientUnavailable (client : ClientId)
  | emptyOutbox (client : ClientId)
  | duplicateLocalOperation (operation : ModelOperationId)
  | retryLineageChanged (operation : ModelOperationId)
  | wrongExpectedVersion (expected supplied : Option Nat)
  | missingRequest (index : Nat)
  | missingResponse (index : Nat)
  | networkDisconnected
  | serverUnavailable
  | incompatibleEpoch (client authority : Nat)
  | nonContiguousResponse (expected actual : Nat)
  | ambiguousOldEpoch (operation : ModelOperationId)
  | invalidPromotionInstance (newInstance : UInt8)
  | fenceExhausted
  | authorityEpochExhausted
  | authorityWritesBlocked
  | staleAuthorityFence
  | operationNotAmbiguous (operation : ModelOperationId)
  | forkQuarantined
deriving DecidableEq

/-- Deterministic state transition available to model searches and replay fixtures. -/
inductive ModelAction where
  | localMutate (client : ClientId) (operation : ModelOperation)
  | sendOperation (client : ClientId)
  | pull (client : ClientId)
  | duplicateRequest (index : Nat)
  | deliverRequest (index : Nat)
  | dropResponse (index : Nat)
  | deliverResponse (index : Nat)
  | crashClient (client : ClientId)
  | restartClient (client : ClientId)
  | crashServer
  | restartServer
  | disconnectNetwork
  | reconnectNetwork
  | promoteLossless (newInstance : UInt8)
  | promoteWithDataLoss (newInstance : UInt8) (retainThrough : Nat)
  | rebootstrapClient (client : ClientId)
  | resolveAmbiguous (client : ClientId) (operation : ModelOperationId) (safeReplay : Bool)
  | detectFork (peerRoot : Vector UInt8 32)
  | completeAuthorityRecovery
deriving DecidableEq

abbrev Transition := Model × Except ActionError Unit

/-- Remove an item by position, or report the caller's error. -/
def checkedRemove {Item : Type} (items : List Item) (index : Nat) (error : ActionError) :
    Except ActionError (Item × List Item) :=
  match items[index]? with
  | some item => .ok (item, items.eraseIdx index)
  | none => .error error

/-- Local intent: the optimistic write and its outbox entry. -/
def ClientModel.mutate (client : ClientModel) (operation : ModelOperation)
    (expectedVersion : Option Nat) : ClientModel :=
  let optimisticVersion := saturatingAdd (expectedVersion.getD 0) 1
  { client with
    optimisticState := client.optimisticState.insert operation.entity
      { version := optimisticVersion, value := operation.value, tombstone := false }
    outbox := client.outbox ++ [operation] }

section
variable (model : Model)

def Model.localMutate (clientId : ClientId) (operation : ModelOperation) : Transition :=
  match model.clients[clientId]? with
  | none => (model, .error (.unknownClient clientId))
  | some client =>
    if client.crashed then (model, .error (.clientUnavailable clientId))
    else if client.outbox.any fun pending => pending.id == operation.id then
      (model, .error (.duplicateLocalOperation operation.id))
    else
      let expectedVersion := client.authoritativeState[operation.entity]?.map (·.version)
      if operation.expectedVersion ≠ expectedVersion then
        (model, .error (.wrongExpectedVersion expectedVersion operation.expectedVersion))
      else (model.setClient clientId (client.mutate operation expectedVersion), .ok ())

/-- The request a client's current state produces for the active authority. -/
def Model.request (clientId : ClientId) (client : ClientModel)
    (operation : Option ModelOperation) : ModelRequest where
  client := clientId
  operation
  cursor := client.cursor
  authorityEpoch := client.cursorEpoch
  authorityInstance := model.server.authorityInstance
  fenceToken := model.server.fenceToken

def Model.withServer (server : ServerModel) : Model := { model with server }

def Model.withRequests (requests : List ModelRequest) : Model :=
  { model with network := { model.network with requests } }

def Model.withResponses (responses : List ModelResponse) : Model :=
  { model with network := { model.network with responses } }

def Model.pushRequest (request : ModelRequest) : Model :=
  model.withRequests (model.network.requests ++ [request])

def Model.pushResponse (response : ModelResponse) : Model :=
  model.withResponses (model.network.responses ++ [response])

end

def ClientModel.markSent (client : ClientModel) (operationId : ModelOperationId) : ClientModel :=
  { client with possiblySent := insert operationId client.possiblySent }

def Model.send (model : Model) (clientId : ClientId) (withOperation : Bool) : Transition :=
  if !model.network.connected then (model, .error .networkDisconnected)
  else match model.clients[clientId]? with
  | none => (model, .error (.unknownClient clientId))
  | some client =>
    if client.crashed || !client.online then (model, .error (.clientUnavailable clientId))
    else if withOperation then
      match client.outbox.head? with
      | none => (model, .error (.emptyOutbox clientId))
      | some operation =>
        if operation.id ∈ client.ambiguousOldEpoch then
          (model, .error (.ambiguousOldEpoch operation.id))
        else
          let sent := model.pushRequest (model.request clientId client (some operation))
          (sent.setClient clientId (client.markSent operation.id), .ok ())
    else (model.pushRequest (model.request clientId client none), .ok ())

/-- The committed event of an operation at a sequence and version. -/
def ModelOperation.event (operation : ModelOperation) (sequence version : Nat) : ModelEvent where
  eventId := ⟨sequence⟩
  correlationId := operation.correlationId
  causedBy := operation.id
  sequence
  operationId := operation.id
  entity := operation.entity
  version
  value := operation.value
  tombstone := false

namespace ServerModel

section
variable (server : ServerModel)

def currentVersion (entity : ModelEntityId) : Option Nat :=
  server.state[entity]?.map (·.version)

section
variable (operation : ModelOperation)

/-- The last two writes of `execute`: retain the correlation and the ledger outcome. -/
def record (outcome : ModelOutcome) : ServerModel :=
  { server with
    operationCorrelations := server.operationCorrelations.insert operation.id operation.correlationId
    appliedOperations := server.appliedOperations.insert operation.id outcome }

/-- Allocate the next sequence, write the entity and append its event. -/
def publish (version : Nat) : ServerModel :=
  let sequence := server.nextSequence
  { server with
    nextSequence := saturatingAdd sequence 1
    state := server.state.insert operation.entity
      { version, value := operation.value, tombstone := false }
    journal := server.journal ++ [operation.event sequence version] }

def execute :
    Except ActionError (ModelOutcome × ServerModel) :=
  match server.appliedOperations[operation.id]? with
  | some outcome =>
    if server.operationCorrelations[operation.id]? ≠ some operation.correlationId then
      .error (.retryLineageChanged operation.id)
    else .ok (outcome, server)
  | none =>
    let currentVersion := server.currentVersion operation.entity
    if currentVersion = operation.expectedVersion then
      let version := saturatingAdd (currentVersion.getD 0) 1
      let outcome := ModelOutcome.accepted server.nextSequence version
      .ok (outcome, (server.publish operation version).record operation outcome)
    else
      let outcome := ModelOutcome.conflict currentVersion
      .ok (outcome, server.record operation outcome)

end

/-- The journal suffix after the request cursor, with the operation's result. -/
def respond (request : ModelRequest)
    (outcome : Option (ModelOperationId × ModelOutcome)) : ModelResponse where
  client := request.client
  outcome
  changes := server.journal.filter fun event => decide (request.cursor < event.sequence)
  authorityEpoch := server.authorityEpoch

end

end ServerModel

def Model.deliverRequest (model : Model) (index : Nat) : Transition :=
  if !model.network.connected then (model, .error .networkDisconnected)
  else if model.server.crashed then (model, .error .serverUnavailable)
  else match checkedRemove model.network.requests index (.missingRequest index) with
  | .error error => (model, .error error)
  | .ok (request, requests) =>
    let removed := model.withRequests requests
    if request.operation.isSome && !model.server.writesEnabled then
      (removed, .error .authorityWritesBlocked)
    else if request.operation.isSome && (request.authorityInstance != model.server.authorityInstance ||
        request.fenceToken != model.server.fenceToken) then
      (removed, .error .staleAuthorityFence)
    else if request.authorityEpoch ≠ model.server.authorityEpoch then
      (removed, .error (.incompatibleEpoch request.authorityEpoch model.server.authorityEpoch))
    else match request.operation with
    | none => (removed.pushResponse (model.server.respond request none), .ok ())
    | some operation =>
      match model.server.execute operation with
      | .error error => (removed, .error error)
      | .ok (outcome, server) =>
        ((removed.withServer server).pushResponse
          (server.respond request (some (operation.id, outcome))), .ok ())

/-- One event of a response applied to the reconciled state. -/
def ClientModel.applyEvent (client : ClientModel) (event : ModelEvent) : ClientModel :=
  { client with
    authoritativeState := client.authoritativeState.insert event.entity event.canonical
    appliedEvents := insert event.sequence client.appliedEvents
    cursor := event.sequence }

/-- The change loop of `deliver_response`; an error keeps the events applied before it. -/
def ClientModel.applyChanges (client : ClientModel) :
    List ModelEvent → ClientModel × Except ActionError Unit
  | [] => (client, .ok ())
  | event :: rest =>
    if event.sequence ≤ client.cursor then client.applyChanges rest
    else
      let expected := saturatingAdd client.cursor 1
      if event.sequence ≠ expected then
        (client, .error (.nonContiguousResponse expected event.sequence))
      else (client.applyEvent event).applyChanges rest

/-- Forget an operation that received a terminal response. -/
def ClientModel.settle (client : ClientModel) (operationId : ModelOperationId) : ClientModel :=
  { client with
    outbox := client.outbox.filter fun operation => operation.id != operationId
    possiblySent := client.possiblySent.erase operationId
    ambiguousOldEpoch := client.ambiguousOldEpoch.erase operationId }

/-- Pending intent laid over reconciled state, in creation order. -/
def overlay (state : ExtTreeMap ModelEntityId CanonicalEntity) (outbox : List ModelOperation) :
    ExtTreeMap ModelEntityId CanonicalEntity :=
  outbox.foldl (fun optimistic pending =>
    let version := optimistic[pending.entity]?.elim 1 fun entity => saturatingAdd entity.version 1
    optimistic.insert pending.entity
      { version, value := pending.value, tombstone := false }) state

def ClientModel.rebuildOverlay (client : ClientModel) : ClientModel :=
  { client with optimisticState := overlay client.authoritativeState client.outbox }

/-- The part of `deliver_response` after the change loop. -/
def ClientModel.reconcile (client : ClientModel) (outcome : Option (ModelOperationId × ModelOutcome)) : ClientModel :=
  (match outcome with
    | some (operationId, _) => client.settle operationId
    | none => client).rebuildOverlay

def Model.deliverResponse (model : Model) (index : Nat) : Transition :=
  if !model.network.connected then (model, .error .networkDisconnected)
  else match checkedRemove model.network.responses index (.missingResponse index) with
  | .error error => (model, .error error)
  | .ok (response, responses) =>
    let removed := model.withResponses responses
    match model.clients[response.client]? with
    | none => (removed, .error (.unknownClient response.client))
    | some client =>
      if client.crashed then (removed, .error (.clientUnavailable response.client))
      else if client.cursorEpoch ≠ response.authorityEpoch then
        (removed, .error (.incompatibleEpoch client.cursorEpoch response.authorityEpoch))
      else match client.applyChanges response.changes with
      | (applied, .error error) => (removed.setClient response.client applied, .error error)
      | (applied, .ok ()) =>
        (removed.setClient response.client (applied.reconcile response.outcome), .ok ())

section
variable (server : ServerModel)

/-- Cut the history after `retain_through` and rebuild everything derived from it. -/
def ServerModel.truncate (retainThrough : Nat) : ServerModel :=
  let journal := server.journal.filter fun event => decide (event.sequence ≤ retainThrough)
  let retainedOperations := (journal.map (·.operationId)).toFinset
  { server with
    journal
    appliedOperations := server.appliedOperations.filter
      fun operation _ => decide (operation ∈ retainedOperations)
    operationCorrelations := server.operationCorrelations.filter
      fun operation _ => decide (operation ∈ retainedOperations)
    state := replay ModelEvent.entity ModelEvent.canonical journal
    nextSequence := journal.getLast?.elim 1 fun event => saturatingAdd event.sequence 1 }

def ServerModel.fence (newInstance : UInt8) : ServerModel :=
  { server with
    fencedInstances := insert server.authorityInstance server.fencedInstances
    authorityInstance := newInstance }

/-- The last two writes of `promote`: leave quarantine and retain the decision's evidence. -/
def ServerModel.concludePromotion (oldEpoch : Nat) (continuityProven : Bool) : ServerModel :=
  { server with
    forkQuarantined := false
    lastTransition := some
      { oldEpoch
        newEpoch := server.authorityEpoch
        continuityProven
        timelineChanged := !continuityProven } }

def ServerModel.promote (newInstance : UInt8) (continuityProven : Bool)
    (retainThrough : Option Nat) : ServerModel × Except ActionError Unit :=
  if newInstance = server.authorityInstance then
    (server, .error (.invalidPromotionInstance newInstance))
  else
    let oldEpoch := server.authorityEpoch
    let fenced := server.fence newInstance
    match checkedAdd server.fenceToken 1 with
    | none => (fenced, .error .fenceExhausted)
    | some fenceToken =>
      let fenced := { fenced with fenceToken }
      let retained := match retainThrough with
        | some retainThrough => fenced.truncate retainThrough
        | none => fenced
      if !continuityProven then
        match checkedAdd oldEpoch 1 with
        | none => (retained, .error .authorityEpochExhausted)
        | some epoch =>
          ({ retained with authorityEpoch := epoch, writesEnabled := false }.concludePromotion
            oldEpoch continuityProven, .ok ())
      else (retained.concludePromotion oldEpoch continuityProven, .ok ())

end

def Model.promote (model : Model) (newInstance : UInt8) (continuityProven : Bool)
    (retainThrough : Option Nat) : Transition :=
  let ended := model.server.promote newInstance continuityProven retainThrough
  (model.withServer ended.1, ended.2)

/-- A client after a fresh snapshot of the authority: pending intent survives, and operations
that may have been sent become ambiguous. -/
def ServerModel.bootstrap (server : ServerModel) (client : ClientModel) : ClientModel :=
  { client with
    ambiguousOldEpoch := client.possiblySent.filter
      fun operation => client.outbox.any fun pending => pending.id == operation
    authoritativeState := server.state
    cursor := server.journal.getLast?.elim 0 ModelEvent.sequence
    cursorEpoch := server.authorityEpoch
    appliedEvents := (server.journal.map ModelEvent.sequence).toFinset }.rebuildOverlay

def Model.rebootstrapClient (model : Model) (clientId : ClientId) : Transition :=
  match model.clients[clientId]? with
  | none => (model, .error (.unknownClient clientId))
  | some client => (model.setClient clientId (model.server.bootstrap client), .ok ())

/-- Release an ambiguous operation, abandoning it unless it may be replayed. -/
def ClientModel.resolve (client : ClientModel) (operationId : ModelOperationId) (safeReplay : Bool) : ClientModel :=
  { client with
    ambiguousOldEpoch := client.ambiguousOldEpoch.erase operationId
    possiblySent := client.possiblySent.erase operationId
    outbox := if safeReplay then client.outbox
      else client.outbox.filter fun operation => operation.id != operationId }

def Model.resolveAmbiguous (model : Model) (clientId : ClientId) (operationId : ModelOperationId)
    (safeReplay : Bool) : Transition :=
  match model.clients[clientId]? with
  | none => (model, .error (.unknownClient clientId))
  | some client =>
    if operationId ∉ client.ambiguousOldEpoch then
      (model, .error (.operationNotAmbiguous operationId))
    else (model.setClient clientId (client.resolve operationId safeReplay), .ok ())

/-- The bytes `journal_root` feeds to the hash for one event. -/
def ModelEvent.rootBytes (event : ModelEvent) : List UInt8 :=
  leBytes 8 event.sequence ++ [event.operationId.id, event.entity.id] ++ leBytes 8 event.version ++
    leBytes 8 (event.value % (u64Max + 1)).toNat ++ [if event.tombstone then 1 else 0]

section Hashed
variable (blake3 : List UInt8 → Vector UInt8 32)

def ServerModel.journalRoot (server : ServerModel) : Vector UInt8 32 :=
  blake3 (server.journal.flatMap ModelEvent.rootBytes)

namespace Model

section
variable (model : Model)

def setCrashed (clientId : ClientId) (crashed : Bool) : Transition :=
  match model.clients[clientId]? with
  | none => (model, .error (.unknownClient clientId))
  | some client => (model.setClient clientId { client with crashed }, .ok ())

def detectFork (peerRoot : Vector UInt8 32) : Transition :=
  if peerRoot ≠ model.server.journalRoot blake3 then
    (model.withServer { model.server with forkQuarantined := true, writesEnabled := false }, .ok ())
  else (model, .ok ())

def completeAuthorityRecovery : Transition :=
  if model.server.forkQuarantined then (model, .error .forkQuarantined)
  else (model.withServer { model.server with writesEnabled := true }, .ok ())

def duplicateRequest (index : Nat) : Transition :=
  match model.network.requests[index]? with
  | none => (model, .error (.missingRequest index))
  | some request => (model.pushRequest request, .ok ())

def dropResponse (index : Nat) : Transition :=
  match checkedRemove model.network.responses index (.missingResponse index) with
  | .error error => (model, .error error)
  | .ok (_, responses) => (model.withResponses responses, .ok ())

/-- Every action of the model, without the invariant checks that `apply` adds. -/
def applyUnchecked : ModelAction → Transition
  | .localMutate client operation => model.localMutate client operation
  | .sendOperation client => model.send client true
  | .pull client => model.send client false
  | .duplicateRequest index => model.duplicateRequest index
  | .deliverRequest index => model.deliverRequest index
  | .dropResponse index => model.dropResponse index
  | .deliverResponse index => model.deliverResponse index
  | .crashClient client => model.setCrashed client true
  | .restartClient client => model.setCrashed client false
  | .crashServer => (model.withServer { model.server with crashed := true }, .ok ())
  | .restartServer => (model.withServer { model.server with crashed := false }, .ok ())
  | .disconnectNetwork => ({ model with network := { model.network with connected := false } }, .ok ())
  | .reconnectNetwork => ({ model with network := { model.network with connected := true } }, .ok ())
  | .promoteLossless newInstance => model.promote newInstance true none
  | .promoteWithDataLoss newInstance retainThrough => model.promote newInstance false (some retainThrough)
  | .rebootstrapClient client => model.rebootstrapClient client
  | .resolveAmbiguous client operation safeReplay => model.resolveAmbiguous client operation safeReplay
  | .detectFork peerRoot => model.detectFork blake3 peerRoot
  | .completeAuthorityRecovery => model.completeAuthorityRecovery

def step (action : ModelAction) : Model :=
  (model.applyUnchecked blake3 action).1

/-- The action returned `Ok`. -/
def Accepts (action : ModelAction) : Prop :=
  (model.applyUnchecked blake3 action).2 = .ok ()

end

end Model

instance (model : Model) (action : ModelAction) : Decidable (model.Accepts blake3 action) :=
  decidable_of_iff ((model.applyUnchecked blake3 action).2.toBool = true) (by
    unfold Model.Accepts
    cases (model.applyUnchecked blake3 action).2 <;> simp [Except.toBool])

end Hashed

end Aequora.SyncModel
