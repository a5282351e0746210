import Aequora.Base.KeyOrder
import Aequora.Base.Word
import Mathlib.Data.Finset.Image

/-! State of the executable protocol model. Ordered Rust maps are extensional tree maps and ordered
sets are finsets. -/

namespace Aequora.SyncModel

open Std Aequora.Base

structure ClientId where
  id : UInt8
deriving DecidableEq

structure ModelOperationId where
  id : UInt8
deriving DecidableEq

structure ModelCorrelationId where
  id : UInt8
deriving DecidableEq

structure ModelEventId where
  id : Nat
deriving DecidableEq

structure ModelEntityId where
  id : UInt8
deriving DecidableEq

instance : Ord ClientId := ⟨compareOn ClientId.id⟩
instance : TransOrd ClientId := inferInstanceAs (TransCmp (compareOn ClientId.id))
instance : LawfulEqOrd ClientId := lawfulEq_compareOn ClientId.id (by rintro ⟨_⟩ ⟨_⟩ rfl; rfl)

instance : Ord ModelOperationId := ⟨compareOn ModelOperationId.id⟩
instance : TransOrd ModelOperationId := inferInstanceAs (TransCmp (compareOn ModelOperationId.id))
instance : LawfulEqOrd ModelOperationId :=
  lawfulEq_compareOn ModelOperationId.id (by rintro ⟨_⟩ ⟨_⟩ rfl; rfl)

instance : Ord ModelEntityId := ⟨compareOn ModelEntityId.id⟩
instance : TransOrd ModelEntityId := inferInstanceAs (TransCmp (compareOn ModelEntityId.id))
instance : LawfulEqOrd ModelEntityId :=
  lawfulEq_compareOn ModelEntityId.id (by rintro ⟨_⟩ ⟨_⟩ rfl; rfl)

structure CanonicalEntity where
  version : Nat
  value : Int
  tombstone : Bool
deriving DecidableEq

/-- Typed local operation retained until an authoritative outcome is reconciled. -/
structure ModelOperation where
  id : ModelOperationId
  correlationId : ModelCorrelationId
  entity : ModelEntityId
  expectedVersion : Option Nat
  value : Int
deriving DecidableEq

/-- One immutable authoritative journal event. -/
structure ModelEvent where
  eventId : ModelEventId
  correlationId : ModelCorrelationId
  causedBy : ModelOperationId
  sequence : Nat
  operationId : ModelOperationId
  entity : ModelEntityId
  version : Nat
  value : Int
  tombstone : Bool
deriving DecidableEq

def ModelEvent.canonical (event : ModelEvent) : CanonicalEntity :=
  { version := event.version, value := event.value, tombstone := event.tombstone }

inductive ModelOutcome where
  | accepted (sequence version : Nat)
  | conflict (currentVersion : Option Nat)
deriving DecidableEq

/-- Abstract durable client state. -/
structure ClientModel where
  authoritativeState : ExtTreeMap ModelEntityId CanonicalEntity := ∅
  optimisticState : ExtTreeMap ModelEntityId CanonicalEntity := ∅
  outbox : List ModelOperation := []
  possiblySent : Finset ModelOperationId := ∅
  ambiguousOldEpoch : Finset ModelOperationId := ∅
  cursorEpoch : Nat := 1
  cursor : Nat := 0
  appliedEvents : Finset Nat := ∅
  online : Bool := true
  crashed : Bool := false
deriving DecidableEq

def ClientModel.default : ClientModel := {}

structure ModelAuthorityTransition where
  (oldEpoch newEpoch : Nat)
  (continuityProven timelineChanged : Bool)
deriving DecidableEq

/-- Abstract durable authority state. -/
structure ServerModel where
  state : ExtTreeMap ModelEntityId CanonicalEntity := ∅
  appliedOperations : ExtTreeMap ModelOperationId ModelOutcome := ∅
  operationCorrelations : ExtTreeMap ModelOperationId ModelCorrelationId := ∅
  journal : List ModelEvent := []
  nextSequence : Nat := 1
  authorityEpoch : Nat := 1
  authorityInstance : UInt8 := 1
  fenceToken : Nat := 1
  fencedInstances : Finset UInt8 := ∅
  writesEnabled : Bool := true
  forkQuarantined : Bool := false
  lastTransition : Option ModelAuthorityTransition := none
  crashed : Bool := false
deriving DecidableEq

def ServerModel.default : ServerModel := {}

/-- Request delayed in the intentionally unreliable abstract network. -/
structure ModelRequest where
  client : ClientId
  operation : Option ModelOperation
  (cursor authorityEpoch : Nat)
  authorityInstance : UInt8
  fenceToken : Nat
deriving DecidableEq

structure ModelResponse where
  client : ClientId
  outcome : Option (ModelOperationId × ModelOutcome)
  changes : List ModelEvent
  authorityEpoch : Nat
deriving DecidableEq

structure NetworkModel where
  requests : List ModelRequest := []
  responses : List ModelResponse := []
  connected : Bool := true
deriving DecidableEq

def NetworkModel.default : NetworkModel := {}

structure Model where
  server : ServerModel
  clients : ExtTreeMap ClientId ClientModel
  network : NetworkModel
deriving DecidableEq

/-- An empty model with the requested bounded client count. -/
def Model.new (clientCount : UInt8) : Model where
  server := .default
  clients := ExtTreeMap.ofList
    ((List.range clientCount.toNat).map fun id => (ClientId.mk (UInt8.ofNat id), ClientModel.default))
  network := .default

def Model.setClient (model : Model) (clientId : ClientId) (client : ClientModel) : Model :=
  { model with clients := model.clients.insert clientId client }

@[simp] theorem Model.setClient_clients (model : Model) (clientId other : ClientId) (client : ClientModel) :
    (model.setClient clientId client).clients[other]? =
      if clientId = other then some client else model.clients[other]? :=
  lookup_insert model.clients clientId other client

theorem Model.new_clients {clientId : ClientId}
    (found : (Model.new clientCount).clients[clientId]? = some client) : client = .default := by
  obtain ⟨_, _, same⟩ := List.mem_map.mp (mem_of_lookup_ofList found)
  exact (Prod.mk.inj same).2.symm

end Aequora.SyncModel
