import Aequora.Server.Exchange
import Aequora.Server.PageFitting

/-! The contract of a whole exchange: every operation of the batch is planned and reported once, and
what is acknowledged is remembered. -/

namespace Aequora.Server

open Aequora.Base Aequora.Protocol Aequora.Store Aequora.Authority Program List

/-- The identities that results report on. -/
def reportedIds (acknowledged : List OperationAck) (rejected : List OperationRejection)
    (conflicts : List Conflict) : List OperationId :=
  acknowledged.map OperationAck.operationId ++ rejected.map OperationRejection.operationId ++
    conflicts.map Conflict.operationId

/-- Everything acknowledged is remembered for one of the operations. -/
def Backed (auth : AuthContext) (operations : List OperationEnvelope) (acknowledged : List OperationAck)
    (state : AuthoritativeState) : Prop :=
  ∀ ack ∈ acknowledged, ∃ operation ∈ operations, ∃ recorded, Remembers auth operation recorded state ∧
    ack = { recorded with duplicate := ack.duplicate }

/-- The results of a batch after the given operations. -/
structure Outcomes.Sound (outcomes : Outcomes) (auth : AuthContext) (processed : List OperationEnvelope)
    (state : AuthoritativeState) : Prop where
  backed : Backed auth processed outcomes.acknowledged state
  completed : ∀ id ∈ outcomes.completed, Completed auth.tenantId state id
  reported : (reportedIds outcomes.acknowledged outcomes.rejected outcomes.conflicts).Perm
    (processed.map OperationEnvelope.operationId)

section Sound
variable {outcomes : Outcomes}
variable {store : InMemoryAuthoritativeStore}

theorem Outcomes.Sound.empty (state : AuthoritativeState) : Outcomes.empty.Sound auth [] state where
  backed _ member := nomatch member
  completed id member := absurd member (Finset.notMem_empty id)
  reported := .nil

theorem Backed.onward (backed : Backed auth processed acknowledged store.state) (move : Onward store later) :
    Backed auth processed acknowledged later.state := by
  intro ack member
  obtain ⟨operation, known, recorded, remembers, same⟩ := backed ack member
  exact ⟨operation, known, recorded, remembers.onward move, same⟩

theorem Outcomes.Sound.onward (sound : outcomes.Sound auth processed store.state)
    (move : Onward store later) : outcomes.Sound auth processed later.state where
  backed := sound.backed.onward move
  completed id member := move.completed (sound.completed id member)
  reported := sound.reported

theorem Outcomes.Sound.add (sound : outcomes.Sound auth processed store.state) (keyed : store.state.WellKeyed)
    (truthful : Truthful auth operation store.state outcome) :
    (outcomes.add outcome).Sound auth (processed ++ [operation]) store.state := by
  have earlier : Backed auth (processed ++ [operation]) outcomes.acknowledged store.state := by
    intro ack member
    obtain ⟨known, held, remembered⟩ := sound.backed ack member
    exact ⟨known, mem_append_left _ held, remembered⟩
  -- Wherever the name of the new result goes, it is the name of the operation just processed.
  have named {acknowledged rejected conflicts : List OperationId}
      (before : (acknowledged ++ rejected ++ conflicts).Perm
        (processed.map OperationEnvelope.operationId)) :
      (operation.operationId :: (acknowledged ++ rejected ++ conflicts)).Perm
        ((processed ++ [operation]).map OperationEnvelope.operationId) := by
    rw [map_append]
    exact (before.cons _).trans (perm_append_singleton _ _).symm
  cases outcome with
  | acknowledged ack =>
    obtain ⟨recorded, remembers, same⟩ := truthful
    have name : ack.operationId = operation.operationId := by
      rw [same]
      exact remembers.operationId keyed
    refine ⟨fun other member => ?_, fun id member => ?_, ?_⟩
    · rcases mem_append.mp member with old | new
      · exact earlier other old
      · cases mem_singleton.mp new
        exact ⟨operation, mem_append_right _ (mem_singleton_self _), recorded, remembers, same⟩
    · rcases Finset.mem_insert.mp member with rfl | old
      · rw [name]
        exact ⟨recorded, remembers.ledger⟩
      · exact sound.completed id old
    · refine Perm.trans ?_ (named sound.reported)
      simp only [reportedIds, Outcomes.add, map_append, map_singleton, name, append_assoc]
      exact perm_middle
  | rejected rejection =>
    refine ⟨earlier, sound.completed, Perm.trans ?_ (named sound.reported)⟩
    have name : rejection.operationId = operation.operationId := truthful
    simp only [reportedIds, Outcomes.add, map_append, map_singleton, name, ← append_assoc]
    rw [append_assoc _ [operation.operationId]]
    exact perm_middle
  | conflict conflict =>
    refine ⟨earlier, sound.completed, Perm.trans ?_ (named sound.reported)⟩
    have name : conflict.operationId = operation.operationId := truthful
    simp only [reportedIds, Outcomes.add, map_append, map_singleton, name, ← append_assoc]
    exact perm_append_singleton _ _

end Sound

namespace SyncServer
variable {server : SyncServer}
theorem filterMap_getElem?_range (items : List OperationEnvelope) :
    (range items.length).filterMap (fun index => items[index]?) = items := by
  induction items using reverseRecOn with
  | nil => rfl
  | append_singleton items last ih =>
    have same : (range items.length).filterMap (fun index => (items ++ [last])[index]?) = items := by
      refine (filterMap_congr fun index within => ?_).trans ih
      exact getElem?_append_left (mem_range.mp within)
    rw [length_append, length_singleton, range_succ, filterMap_append, same]
    simp

theorem planned_perm (plan : planned operations = .ok ordered) :
    (ordered.map Prod.snd).Perm operations ∧
      (operations.map OperationEnvelope.operationId).Nodup := by
  unfold planned at plan
  cases built : planDependencies operations with
  | error _ => simp [built] at plan
  | ok order =>
    rw [built] at plan
    cases plan
    obtain ⟨perm, distinct⟩ := planDependencies_perm built
    refine ⟨?_, distinct⟩
    have looked : (order.orderedIndices.filterMap fun index => operations[index]?.map (index, ·)).map
        Prod.snd = order.orderedIndices.filterMap fun index => operations[index]? := by
      simp [map_filterMap, Function.comp_def]
    rw [looked]
    exact (perm.filterMap _).trans (.of_eq (filterMap_getElem?_range operations))

/-- What a batch leaves behind: sound results, among them every earlier acknowledgement and one for
each operation that was remembered at its start. -/
structure BatchAnswers (auth : AuthContext) (processed : List OperationEnvelope)
    (rest : List (Nat × OperationEnvelope)) (outcomes : Outcomes) (start : InMemoryAuthoritativeStore)
    (ended : Outcomes) (store : InMemoryAuthoritativeStore) : Prop where
  sound : ended.Sound auth (processed ++ rest.map Prod.snd) store.state
  kept : outcomes.acknowledged ⊆ ended.acknowledged
  repeats : ∀ operation ∈ rest.map Prod.snd, ∀ recorded, Remembers auth operation recorded start.state →
    ∃ ack ∈ ended.acknowledged, ack.operationId = operation.operationId

theorem processOperations_ensures (distinct : (operations.map OperationEnvelope.operationId).Nodup)
    (members : ∀ operation ∈ rest.map Prod.snd, operation ∈ operations)
    (keyed : store.state.WellKeyed) (sound : outcomes.Sound auth processed store.state) :
    (server.processOperations environment auth scopeId outcomes rest).Ensures Onward
      (server.Commits auth operations)
      (fun result later => ∀ ended, result = .ok ended →
        BatchAnswers auth processed rest outcomes store ended later) store := by
  induction rest generalizing outcomes processed store with
  | nil =>
    refine ensures_pure fun later move ended reported => ?_
    cases reported
    exact ⟨by simpa using sound.onward move, fun _ => id, fun _ member => nomatch member⟩
  | cons entry _ ih =>
    obtain ⟨_, _⟩ := entry
    obtain ⟨member, others⟩ := forall_mem_cons.mp members
    refine ensures_then (processOperation_ensures distinct member sound.completed)
      fun result later move answers => ?_
    cases result with
    | error _ => exact ensures_pure fun _ _ _ reported => nomatch reported
    | ok outcome =>
      have laterKeyed : later.state.WellKeyed := AuthoritativeState.Extends.keyed move keyed
      have added := (sound.onward move).add laterKeyed (answers.reports outcome rfl)
      have remaining := ih others laterKeyed added
      refine remaining.mono (fun _ _ => id) fun result last batch ended reported => ?_
      obtain ⟨final, kept, repeats⟩ := batch ended reported
      refine ⟨by simpa using final, fun ack old => kept ?_, ?_⟩
      · cases outcome with
        | acknowledged _ => exact mem_append_left _ old
        | rejected _ => exact old
        | conflict _ => exact old
      · rw [map_cons, forall_mem_cons]
        constructor
        · intro recorded remembers
          obtain ⟨ack, rfl⟩ := answers.repeats recorded remembers outcome rfl
          obtain ⟨_, held, same⟩ := answers.reports _ rfl
          refine ⟨ack, kept (mem_append_right _ (mem_singleton_self ack)), ?_⟩
          rw [same]
          exact held.operationId laterKeyed
        · intro other held recorded remembers
          exact repeats other held recorded (remembers.onward move)

end SyncServer

/-- What a response that continues says about the operations of its request. -/
structure Answered (auth : AuthContext) (operations : List OperationEnvelope)
    (start : InMemoryAuthoritativeStore) (response : SyncResponse) (store : InMemoryAuthoritativeStore) :
    Prop where
  distinct : (operations.map OperationEnvelope.operationId).Nodup
  backed : Backed auth operations response.acknowledged store.state
  reported : (reportedIds response.acknowledged response.rejected response.conflicts).Perm
    (operations.map OperationEnvelope.operationId)
  repeats : ∀ operation ∈ operations, ∀ recorded, Remembers auth operation recorded start.state →
    ∃ ack ∈ response.acknowledged, ack.operationId = operation.operationId

namespace SyncServer
variable {server : SyncServer} {request : SyncRequest}
theorem checkRequest_early (checked : server.checkRequest environment auth request = .ok (some response)) :
    response.directive ≠ .continue := by
  unfold checkRequest at checked
  split at checked
  · cases checked
  · split at checked
    · cases checked
    · split at checked
      · cases checked
      · split at checked
        · cases checked
        · split at checked
          · cases checked
          · split at checked
            · cases checked
            · cases checked
            · cases Except.ok.inj checked
              exact nofun

/-- A response that does not continue has nothing to answer for. -/
theorem ensures_early (other : response.directive ≠ .continue) :
    (pure (.ok response) : Program InMemoryAuthoritativeStore (Except ServerError SyncResponse)).Ensures
      Onward (server.Commits auth request.operations)
      (fun result later => ∀ response, result = .ok response → response.directive = .continue →
        Answered auth request.operations store response later) later := by
  refine ensures_pure fun _ _ response reported continues => ?_
  cases reported
  exact absurd continues other

theorem processAdmitted_ensures (keyed : store.state.WellKeyed) :
    (server.processAdmitted environment auth request).Ensures Onward
      (server.Commits auth request.operations)
      (fun result later => ∀ response, result = .ok response → response.directive = .continue →
        Answered auth request.operations store response later) store := by
  apply ensures_observe_bind Commits.refl
  intro looked move
  split
  · exact ensures_early nofun
  · cases plan : planned request.operations with
    | error error => exact ensures_pure fun _ _ _ reported => nomatch reported
    | ok _ =>
      obtain ⟨perm, distinct⟩ := planned_perm plan
      have lookedKeyed : looked.state.WellKeyed := AuthoritativeState.Extends.keyed move keyed
      refine ensures_then (processOperations_ensures distinct (fun operation => perm.mem_iff.mp)
        lookedKeyed (.empty looked.state)) fun result later _ batch => ?_
      cases result with
      | error _ => exact ensures_pure fun _ _ _ reported => nomatch reported
      | ok outcomes =>
        obtain ⟨sound, -, repeats⟩ := batch outcomes rfl
        apply ensures_observe_bind Commits.refl
        intro _ further
        refine ensures_pure fun final ahead response reported _ => ?_
        obtain ⟨_, _, -, result⟩ := respond_fitted reported
        cases result.shape
        have settled := (sound.onward further).onward ahead
        refine ⟨distinct, ?_, ?_, ?_⟩
        · intro ack member
          obtain ⟨operation, known, remembered⟩ := settled.backed ack member
          exact ⟨operation, perm.mem_iff.mp known, remembered⟩
        · exact settled.reported.trans (perm.map _)
        · intro operation member recorded remembers
          exact repeats operation (perm.mem_iff.mpr member) recorded (remembers.onward move)

theorem process_ensures (keyed : store.state.WellKeyed) :
    (server.process environment auth request).Ensures Onward (server.Commits auth request.operations)
      (fun result later => ∀ response, result = .ok response → response.directive = .continue →
        Answered auth request.operations store response later) store := by
  unfold process
  split
  · exact ensures_early nofun
  · split
    · exact ensures_pure fun _ _ _ reported => nomatch reported
    · exact ensures_early (checkRequest_early ‹_›)
    · exact processAdmitted_ensures keyed

end SyncServer

end Aequora.Server
