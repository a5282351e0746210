import Aequora.Server.Batch
import Aequora.Server.Retry

/-! Finality of reported outcomes over whole runs of a server, with commit failures injected at any
time. An acknowledgement is final; a refusal stands as long as no state is reached that accepts the
operation. -/

namespace Aequora.Server

open Aequora.Base Aequora.Protocol Aequora.Store Aequora.Authority SyncServer AuthoritativeState Run Onward

structure Call where
  environment : Environment
  auth : AuthContext
  request : SyncRequest

abbrev Deployment := Pool InMemoryAuthoritativeStore Call (Except ServerError SyncResponse)

def SyncServer.code (server : SyncServer) (call : Call) :
    Program InMemoryAuthoritativeStore (Except ServerError SyncResponse) :=
  server.process call.environment call.auth call.request

def injected (failpoint : CommitFailPoint) (store : InMemoryAuthoritativeStore) : InMemoryAuthoritativeStore :=
  store.injectCommitFailure failpoint

def SyncServer.step (server : SyncServer) : Deployment → Schedule Call CommitFailPoint → Deployment :=
  Pool.step server.code injected

def SyncServer.reached (server : SyncServer) (events : List (Schedule Call CommitFailPoint)) : Deployment :=
  final server.step ⟨.default, []⟩ events

/-- The response reports the operation as rejected or conflicting. -/
def Refuses (response : SyncResponse) (operation : OperationEnvelope) : Prop :=
  operation.operationId ∈ response.rejected.map OperationRejection.operationId ∨
    operation.operationId ∈ response.conflicts.map Conflict.operationId

/-- Two acknowledgements of one commit. -/
def SameCommit (ack again : OperationAck) : Prop :=
  again.operationId = ack.operationId ∧ again.eventId = ack.eventId ∧
    again.entityVersion = ack.entityVersion ∧ again.sequence = ack.sequence

section
variable (server : SyncServer) (auth : AuthContext) (operation : OperationEnvelope)

/-- In this step a call that carries the operation under this identity records it. -/
def SyncServer.CommitsIn (pool : Deployment) (event : Schedule Call CommitFailPoint) : Prop :=
  ∃ index call program, event = .advance index ∧ pool.threads[index]? = some (call, program) ∧
    call.auth = auth ∧ operation ∈ call.request.operations ∧
    ¬Completed auth.tenantId pool.shared.state operation.operationId ∧
    Completed auth.tenantId (server.step pool event).shared.state operation.operationId

/-- Grounds of refusal that no later state removes. -/
def SyncServer.RefusesForGood (state : AuthoritativeState) : Prop :=
  ¬auth.Matches operation ∨ Completed auth.tenantId state operation.operationId ∨
    server.executor.authorize auth operation ≠ .ok () ∨
    ∀ current mutation nextVersion,
      server.evaluate auth operation current ≠ .ok (.commit mutation nextVersion)

/-- No state from here to the end of the run accepts the operation. -/
def SyncServer.StaysRefused (pool : Deployment) (events : List (Schedule Call CommitFailPoint)) : Prop :=
  Throughout server.step (fun pool => ¬server.Accepts auth operation pool.shared.state) pool events

end

theorem interference : Interference Onward injected where
  reflexive := refl
  transitive := trans
  disturbance _ store := refl store

section Responses
variable {store : InMemoryAuthoritativeStore}

/-- An acknowledgement of a remembered operation repeats the recorded result. -/
theorem Backed.repeats {ack : OperationAck} (keyed : store.state.WellKeyed)
    (backed : Backed auth operations acknowledged store.state) (member : ack ∈ acknowledged)
    (remembers : Remembers auth operation recorded store.state)
    (name : ack.operationId = operation.operationId) :
    ack = { recorded with duplicate := ack.duplicate } := by
  obtain ⟨known, -, held, remembered, same⟩ := backed ack member
  have sameKey : auth.operationKey known = auth.operationKey operation := by
    have knownName : ack.operationId = known.operationId := by
      rw [same]
      exact remembered.operationId keyed
    rw [AuthContext.operationKey, ← knownName, name, AuthContext.operationKey]
  have sameRecord : held = recorded :=
    Option.some.inj (remembered.ledger.symm.trans (sameKey ▸ remembers.ledger))
  rw [← sameRecord]
  exact same

theorem Answered.not_refuses {ack : OperationAck}
    (answered : Answered auth operations start response store) (member : ack ∈ response.acknowledged)
    (name : ack.operationId = operation.operationId) : ¬Refuses response operation := by
  have distinct := answered.reported.nodup_iff.mpr answered.distinct
  have listed : operation.operationId ∈ response.acknowledged.map OperationAck.operationId :=
    List.mem_map.mpr ⟨ack, member, name⟩
  rw [reportedIds, List.append_assoc] at distinct
  have disjoint := List.disjoint_of_nodup_append distinct
  intro refused
  exact disjoint listed (List.mem_append.mpr refused)

end Responses

namespace SyncServer
variable (server : SyncServer)

theorem reached_append (before after : List (Schedule Call CommitFailPoint)) :
    server.reached (before ++ after) = final server.step (server.reached before) after :=
  final_append ..

/-- What every call keeps and delivers. -/
def exchangeContract : Contract InMemoryAuthoritativeStore Call (Except ServerError SyncResponse) where
  invariant store := store.state.WellKeyed
  guarantee call := server.Commits call.auth call.request.operations
  post call result store := ∀ response, result = .ok response → response.directive = .continue →
    ∃ start, Answered call.auth call.request.operations start response store

theorem exchangeContract_fulfilled : server.exchangeContract.Fulfilled Onward server.code where
  kept keyed move := Extends.keyed move keyed
  guaranteed := Commits.onward
  program _ start keyed := (process_ensures keyed).mono (fun _ _ => id)
    fun _ _ answered response reported continues => ⟨start, answered response reported continues⟩

theorem run_verified (keyed : store.state.WellKeyed) (events : List (Schedule Call CommitFailPoint)) :
    (final server.step ⟨store, []⟩ events).Verified server.exchangeContract Onward 0 := by
  have empty : (⟨store, []⟩ : Deployment).Verified server.exchangeContract Onward 0 :=
    .of_length keyed (Nat.le_refl 0)
  exact empty.run interference server.exchangeContract_fulfilled events

theorem wellKeyed_default : AuthoritativeState.default.WellKeyed := by
  intro _ _ found
  simp [AuthoritativeState.default] at found

theorem reached_verified (events : List (Schedule Call CommitFailPoint)) :
    (server.reached events).Verified server.exchangeContract Onward 0 :=
  server.run_verified wellKeyed_default events

variable {server}

theorem RefusesForGood.onward
    (refuses : server.RefusesForGood auth operation store.state) (move : Onward store later) :
    ¬server.Accepts auth operation later.state := by
  intro accepts
  rcases refuses with foreign | completed | unauthorized | undecided
  · exact foreign accepts.authenticated
  · exact accepts.fresh (move.completed completed)
  · exact unauthorized accepts.authorized
  · obtain ⟨mutation, nextVersion, decided⟩ := accepts.decided
    exact undecided _ mutation nextVersion decided

theorem RefusesForGood.staysRefused
    (refuses : server.RefusesForGood auth operation (server.reached before).shared.state) :
    server.StaysRefused auth operation (server.reached before) after := by
  apply throughout_iff_cut.mpr
  intro between _ _
  exact refuses.onward ((server.reached_verified before).run_rely interference server.exchangeContract_fulfilled
    between)

/-- A newly recorded operation was submitted by the call that advanced, in a state that accepts it. -/
theorem recorded_accepts (verified : pool.Verified server.exchangeContract Onward 0) {id : OperationId}
    (missing : ¬Completed tenant pool.shared.state id)
    (recorded : Completed tenant (server.step pool event).shared.state id) :
    ∃ index call program, event = .advance index ∧ pool.threads[index]? = some (call, program) ∧
      call.auth.tenantId = tenant ∧
      (call.request.operations.map OperationEnvelope.operationId).Nodup ∧
      ∃ operation ∈ call.request.operations, operation.operationId = id ∧
        server.Accepts call.auth operation pool.shared.state := by
  cases event with
  | start call => exact absurd recorded missing
  | disturb _ => exact absurd recorded missing
  | advance index =>
    cases tracked : pool.threads[index]? with
    | none =>
      rw [show server.step pool (.advance index) = pool by
        simp [step, Pool.step, tracked]] at recorded
      exact absurd recorded missing
    | some thread =>
      obtain ⟨call, program⟩ := thread
      rcases verified.advance server.code interference index.zero_le tracked with same | kept
      · rw [show server.step pool (.advance index) =
          Pool.step server.code injected pool (.advance index) from rfl, same] at recorded
        exact absurd recorded missing
      · rcases kept.accepted _ _ recorded with held | ⟨distinct, operation, member, sameTenant, sameId, accepts⟩
        · exact absurd held missing
        · exact ⟨index, call, program, rfl, tracked, sameTenant.symm, distinct, operation, member,
            sameId.symm, accepts⟩

theorem CommitsIn.accepts {pool : Deployment} (verified : pool.Verified server.exchangeContract Onward 0)
    (commits : server.CommitsIn auth operation pool event) :
    server.Accepts auth operation pool.shared.state := by
  obtain ⟨_, _, _, rfl, tracked, rfl, submitted, missing, recorded⟩ := commits
  obtain ⟨_, _, _, same, found, -, distinct, _, member, sameId, accepts⟩ :=
    recorded_accepts verified missing recorded
  cases Schedule.advance.inj same
  cases Option.some.inj (found.symm.trans tracked)
  cases List.inj_on_of_nodup_map distinct submitted member sameId.symm
  exact accepts

/-- Calls that start once an operation is remembered. -/
def redeliveryContract (server : SyncServer) (auth : AuthContext) (operation : OperationEnvelope)
    (recorded : OperationAck) :
    Contract InMemoryAuthoritativeStore Call (Except ServerError SyncResponse) where
  invariant store := store.state.WellKeyed ∧ Remembers auth operation recorded store.state
  guarantee call := server.Commits call.auth call.request.operations
  post call result _ := call.auth = auth → operation ∈ call.request.operations →
    ∀ response, result = .ok response → response.directive = .continue → ¬Refuses response operation ∧
      ∃ again ∈ response.acknowledged, again = { recorded with duplicate := again.duplicate }

theorem redeliveryContract_fulfilled :
    (redeliveryContract server auth operation recorded).Fulfilled Onward server.code where
  kept := fun ⟨keyed, remembers⟩ move =>
    ⟨Extends.keyed move keyed, remembers.onward move⟩
  guaranteed := Commits.onward
  program call start := by
    intro ⟨keyed, remembers⟩
    have ensures : (server.code call).Ensures Onward (server.Commits call.auth call.request.operations)
        (fun result later => Onward start later ∧ ∀ response, result = .ok response →
          response.directive = .continue →
            Answered call.auth call.request.operations start response later) start :=
      (process_ensures keyed).moved (refl start) (fun _ _ => Commits.onward) trans
    refine ensures.mono (fun _ _ => id) ?_
    rintro _ _ ⟨move, answers⟩ rfl submitted response reported continues
    have answered := answers response reported continues
    obtain ⟨ack, member, name⟩ := answered.repeats operation submitted recorded remembers
    exact ⟨answered.not_refuses member name, ack, member, answered.backed.repeats
      (Extends.keyed move keyed) member (remembers.onward move) name⟩

/-- An acknowledged operation is remembered when its response is out. -/
theorem acknowledged_remembered {ack : OperationAck} (finished : (server.reached events).finished index = some (call, .ok response))
    (continued : response.directive = .continue) (submitted : operation ∈ call.request.operations)
    (member : ack ∈ response.acknowledged) (name : ack.operationId = operation.operationId) :
    ∃ recorded, Remembers call.auth operation recorded (server.reached events).shared.state ∧
      ack = { recorded with duplicate := ack.duplicate } := by
  have verified := server.reached_verified events
  obtain ⟨_, answered⟩ :=
    verified.finished interference index.zero_le finished response rfl continued
  obtain ⟨known, listed, recorded, remembers, same⟩ := answered.backed ack member
  have knownName : operation.operationId = known.operationId := by
    rw [← name, same]
    exact remembers.operationId verified.invariant
  cases List.inj_on_of_nodup_map answered.distinct submitted listed knownName
  exact ⟨recorded, remembers, same⟩

/-- Once a response has continued, a refused operation is never recorded by a call that carries it
while its grounds last, and an acknowledged one is acknowledged alike by every call that starts
later. -/
theorem outcomes_final {before after : List (Schedule Call CommitFailPoint)} {index : Nat} {call : Call}
    {response : SyncResponse}
    (finished : (server.reached before).finished index = some (call, .ok response))
    (continued : response.directive = .continue) (submitted : operation ∈ call.request.operations) :
    (Refuses response operation →
      (server.RefusesForGood call.auth operation (server.reached before).shared.state ∨
        server.StaysRefused call.auth operation (server.reached before) after) →
      Permitted server.step (fun pool event => ¬server.CommitsIn call.auth operation pool event)
        (server.reached before) after) ∧
      ∀ ack ∈ response.acknowledged, ack.operationId = operation.operationId →
        ∀ position again repeated, (server.reached before).threads.length ≤ position →
          (server.reached (before ++ after)).finished position = some (again, .ok repeated) →
          again.auth = call.auth → operation ∈ again.request.operations →
          repeated.directive = .continue →
            ¬Refuses repeated operation ∧ ∃ same ∈ repeated.acknowledged, SameCommit ack same := by
  constructor
  · intro _ grounds
    have refused : server.StaysRefused call.auth operation (server.reached before) after :=
      grounds.elim RefusesForGood.staysRefused id
    apply permitted_iff_cut.mpr
    intro between event rest split commits
    rw [← server.reached_append] at commits
    refine throughout_iff_cut.mp refused between (event :: rest) split ?_
    rw [← server.reached_append]
    exact commits.accepts (server.reached_verified _)
  · intro _ member name _ _ repeated later ended sameAuth redelivered continues
    obtain ⟨recorded, remembers, same⟩ :=
      acknowledged_remembered finished continued submitted member name
    have verified := server.reached_verified before
    have fresh : (server.reached before).Verified
        (redeliveryContract server call.auth operation recorded) Onward
        (server.reached before).threads.length :=
      .of_length ⟨verified.invariant, remembers⟩ (Nat.le_refl _)
    have reached := verified.run_from interference server.exchangeContract_fulfilled
      redeliveryContract_fulfilled fresh after
    rw [server.reached_append] at ended
    obtain ⟨notRefused, copy, listed, sameAgain⟩ :=
      reached.finished interference later ended sameAuth redelivered repeated rfl continues
    refine ⟨notRefused, copy, listed, ?_⟩
    rw [same, sameAgain]
    exact ⟨rfl, rfl, rfl, rfl⟩

end SyncServer

/-- What an ended call reported, by identity. -/
structure Report where
  auth : AuthContext
  operations : List OperationEnvelope
  directive : SyncDirective
  (acknowledged rejected conflicts : List OperationId)
deriving DecidableEq

def reportOf (pool : Deployment) (index : Nat) : Option Report :=
  match pool.finished index with
  | some (call, .ok response) => some
    { auth := call.auth
      operations := call.request.operations
      directive := response.directive
      acknowledged := response.acknowledged.map OperationAck.operationId
      rejected := response.rejected.map OperationRejection.operationId
      conflicts := response.conflicts.map Conflict.operationId }
  | _ => none

def exampleCall (firstEvent : Nat) (operations : List OperationEnvelope) : Call where
  environment := exampleEnvironment firstEvent
  auth := exampleAuth
  request :=
    { protocol := 1
      requestId := ⟨1⟩
      session := ⟨⟨1⟩, ⟨1⟩, ⟨1⟩, ⟨1⟩, ⟨1⟩, []⟩
      cursor := none
      operations
      limits := { maxChanges := 16, maxResponseBytes := 4096 } }

def exampleExchange (index firstEvent : Nat) (operations : List OperationEnvelope) :
    List (Schedule Call CommitFailPoint) :=
  .start (exampleCall firstEvent operations) :: List.replicate 10 (.advance index)

theorem reportOf_eq_some (reported : reportOf pool index = some report) :
    ∃ call response, pool.finished index = some (call, .ok response) ∧ call.auth = report.auth ∧
      call.request.operations = report.operations ∧ response.directive = report.directive ∧
      response.acknowledged.map OperationAck.operationId = report.acknowledged ∧
      response.rejected.map OperationRejection.operationId = report.rejected := by
  unfold reportOf at reported
  split at reported
  · rename_i call response ended
    cases reported
    exact ⟨call, response, ended, rfl, rfl, rfl, rfl, rfl⟩
  · cases reported

def exampleBatch : List OperationEnvelope :=
  [exampleOperation 1 [1] [], { exampleOperation 2 [2] [] with actorId := ⟨9⟩ }]

/-- A batch of one acknowledged and one refused operation, delivered again. -/
theorem outcomes_final_redelivered : ∃ call response again repeated,
      (exampleServer.reached (exampleExchange 0 1 exampleBatch)).finished 0 = some (call, .ok response) ∧
      (exampleServer.reached (exampleExchange 0 1 exampleBatch ++ exampleExchange 1 5 exampleBatch)).finished
        1 = some (again, .ok repeated) ∧
      (∃ refused ∈ exampleBatch, Refuses response refused ∧ Permitted exampleServer.step
        (fun pool event => ¬exampleServer.CommitsIn call.auth refused pool event)
        (exampleServer.reached (exampleExchange 0 1 exampleBatch)) (exampleExchange 1 5 exampleBatch)) ∧
      ∃ ack ∈ response.acknowledged, ∃ same ∈ repeated.acknowledged, SameCommit ack same := by
  have first : reportOf (exampleServer.reached (exampleExchange 0 1 exampleBatch)) 0 =
      some ⟨exampleAuth, exampleBatch, .continue, [⟨1⟩], [⟨2⟩], []⟩ := by decide +kernel
  have second : reportOf (exampleServer.reached
      (exampleExchange 0 1 exampleBatch ++ exampleExchange 1 5 exampleBatch)) 1 =
      some ⟨exampleAuth, exampleBatch, .continue, [⟨1⟩], [⟨2⟩], []⟩ := by decide +kernel
  obtain ⟨call, response, finished, auth, operations, continued, acknowledged, rejected⟩ :=
    reportOf_eq_some first
  obtain ⟨again, repeated, finishedAgain, authAgain, operationsAgain, continues, -, -⟩ :=
    reportOf_eq_some second
  obtain ⟨ack, member, name⟩ : ∃ ack ∈ response.acknowledged, ack.operationId = ⟨1⟩ := by
    rw [← List.mem_map, acknowledged]
    decide
  refine ⟨call, response, again, repeated, finished, finishedAgain, ?_, ack, member, ?_⟩
  · have submitted : { exampleOperation 2 [2] [] with actorId := ⟨9⟩ } ∈ call.request.operations := by
      simp [operations, exampleBatch]
    have refused : Refuses response { exampleOperation 2 [2] [] with actorId := ⟨9⟩ } := by
      rw [Refuses, rejected]
      exact .inl (by decide)
    refine ⟨_, by simp [exampleBatch], refused, ?_⟩
    refine (outcomes_final finished continued submitted).1 refused (.inl (.inl ?_))
    rw [auth]
    decide
  · have submitted : exampleOperation 1 [1] [] ∈ call.request.operations := by
      simp [operations, exampleBatch]
    have started : (exampleServer.reached (exampleExchange 0 1 exampleBatch)).threads.length ≤ 1 := by
      decide +kernel
    exact ((outcomes_final finished continued submitted).2 ack member name 1 again repeated
      started finishedAgain (authAgain.trans auth.symm) (by simp [operationsAgain, exampleBatch])
      continues).2

/-- An operation is refused for a missing dependency, the dependency is committed, and the same
request delivered again commits the operation. And of two overlapping calls that carry one
operation, one has it acknowledged and the other, ending later, reports a conflict. -/
theorem outcomes_not_final :
    (reportOf (exampleServer.reached (exampleExchange 0 1 [exampleOperation 2 [2] [⟨1⟩]])) 0 =
        some ⟨exampleAuth, [exampleOperation 2 [2] [⟨1⟩]], .continue, [], [⟨2⟩], []⟩ ∧
      exampleServer.CommitsIn exampleAuth (exampleOperation 2 [2] [⟨1⟩])
        (exampleServer.reached (exampleExchange 0 1 [exampleOperation 2 [2] [⟨1⟩]] ++
          exampleExchange 1 2 [exampleOperation 1 [1] []] ++
          (exampleExchange 2 3 [exampleOperation 2 [2] [⟨1⟩]]).take 5))
        (.advance 2)) ∧
      ∃ before after : List (Schedule Call CommitFailPoint),
        reportOf (exampleServer.reached before) 0 =
            some ⟨exampleAuth, [exampleOperation 1 [1] []], .continue, [⟨1⟩], [], []⟩ ∧
          reportOf (exampleServer.reached before) 1 = none ∧
          reportOf (exampleServer.reached (before ++ after)) 1 =
            some ⟨exampleAuth, [exampleOperation 1 [1] []], .continue, [], [], [⟨1⟩]⟩ := by
  refine ⟨⟨by decide +kernel, ?_⟩, ?_⟩
  · have shape : (exampleServer.reached (exampleExchange 0 1 [exampleOperation 2 [2] [⟨1⟩]] ++
        exampleExchange 1 2 [exampleOperation 1 [1] []] ++
        (exampleExchange 2 3 [exampleOperation 2 [2] [⟨1⟩]]).take 5)).threads[2]?.map
          (fun thread => (thread.1.auth, thread.1.request.operations)) =
        some (exampleAuth, [exampleOperation 2 [2] [⟨1⟩]]) := by decide +kernel
    obtain ⟨⟨call, program⟩, tracked, same⟩ := Option.map_eq_some_iff.mp shape
    obtain ⟨auth, operations⟩ := Prod.mk.inj same
    have submitted : exampleOperation 2 [2] [⟨1⟩] ∈ call.request.operations :=
      operations.symm ▸ List.mem_singleton_self _
    exact ⟨2, call, program, rfl, tracked, auth, submitted, by decide +kernel, by decide +kernel⟩
  · refine ⟨[.start (exampleCall 1 [exampleOperation 1 [1] []]),
      .start (exampleCall 2 [exampleOperation 1 [1] []]), .advance 1, .advance 1] ++
        List.replicate 10 (.advance 0), List.replicate 10 (.advance 1), ?_⟩
    decide +kernel

end Aequora.Server
