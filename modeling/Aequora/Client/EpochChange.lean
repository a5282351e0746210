import Aequora.Client.Exchange
import Aequora.Store.DependencyOrder

/-! The end of an exchange in which the authority shows a new epoch: the batch may have been
committed in the old one, so the engine puts it off until the largest time there is. -/

namespace Aequora.Client

open Std Aequora.Base Aequora.Protocol Aequora.Store

section Engine
variable {store : ClientStore State Surroundings}
  {call : ExchangeCall State Surroundings} {state sent : State}

/-- The exchange reaches an answer, and that shows the client another epoch. -/
inductive RevealsEpoch (config : ClientConfig) (store : ClientStore State Surroundings)
    (call : ExchangeCall State Surroundings) (state : State) (request : SyncRequest) (sent : State)
    (authorityId : AuthorityId) (previous current : AuthorityEpoch) : Prop where
  | intro (scheduling : Scheduling) (compacted : State) (response : SyncResponse)
    (scheduled : call.scheduling = .ok scheduling)
    (compaction : call.compactOutbox state = (compacted, .ok ()))
    (prepared : prepareRequest config store call scheduling compacted = .ok request)
    (sending : store.markSendingFenced call.sending (submittedIds request) compacted = (sent, .ok ()))
    (answered : call.exchange request = .ok response)
    (revealed : validateResponse config call.encodedResponse request.cursor response (submittedIds request) =
      .error (.authorityChanged authorityId previous current))

/-- No operation of the batch is handed out before the largest time, and the caller learns of the
new epoch. -/
def Quarantined (store : ClientStore State Surroundings) (operations : List OperationId) (error : ClientError)
    (ended : State × Except ClientError SyncOutcome) : Prop :=
  ended.2 = .error error ∧
    ∀ now < u64Max, ∀ limit batch, store.pendingOperations now limit ended.1 = .ok batch →
      ∀ operation ∈ batch, operation.operationId ∉ operations

variable (reveals : RevealsEpoch config store call state request sent authorityId previous current)
include reveals

theorem RevealsEpoch.runOnce_eq :
    runOnce config store call state = retryLater store call (submittedIds request) u64Max
      (.authorityChanged authorityId previous current) sent := by
  obtain ⟨_, _, response, scheduled, compaction, prepared, sending, answered, revealed⟩ := reveals
  have refused : reconcileExchange config call.encodedResponse (store.reconcileFenced call.reconciling)
      request.cursor response (submittedIds request) sent =
        (sent, .error (.authorityChanged authorityId previous current)) := by
    rw [reconcileExchange, revealed]
  simp only [runOnce, scheduled, compaction, prepared, submitRequest, sending, answered, refused]
  rfl

omit reveals in
theorem retryLater_delivers_iff :
    (retryLater store call operations nextAttempt (.authorityChanged authorityId previous current) state).2 =
        .error (.authorityChanged authorityId previous current) ↔
      (store.markRetryFenced call.retrying operations nextAttempt state).2 = .ok () := by
  unfold retryLater
  split
  · rename_i failed
    rw [failed]
    simp
  · rename_i marked
    rw [marked]
    simp

omit reveals in
theorem retryLater_state : (retryLater store call operations nextAttempt error state).1 =
      (store.markRetryFenced call.retrying operations nextAttempt state).1 := by
  unfold retryLater
  split
  · rename_i failed
    rw [failed]
  · rename_i marked
    rw [marked]

/-- The batch is quarantined exactly when the store takes the largest time and keeps to it. -/
theorem RevealsEpoch.quarantined_iff :
    Quarantined store (submittedIds request) (.authorityChanged authorityId previous current)
        (runOnce config store call state) ↔
      (store.markRetryFenced call.retrying (submittedIds request) u64Max sent).2 = .ok () ∧
        ∀ now < u64Max, ∀ limit batch, store.pendingOperations now limit
            (store.markRetryFenced call.retrying (submittedIds request) u64Max sent).1 = .ok batch →
          ∀ operation ∈ batch, operation.operationId ∉ submittedIds request := by
  rw [Quarantined, reveals.runOnce_eq, retryLater_delivers_iff, retryLater_state]

theorem RevealsEpoch.sending :
    ∃ compacted, store.markSendingFenced call.sending (submittedIds request) compacted = (sent, .ok ()) := by
  obtain ⟨_, compacted, _, _, _, _, sending, _, _⟩ := reveals
  exact ⟨compacted, sending⟩

end Engine

section Stores
theorem reference_quarantined_iff
    (reveals : RevealsEpoch config referenceClient call state request sent authorityId previous current) :
    Quarantined referenceClient (submittedIds request) (.authorityChanged authorityId previous current)
      (runOnce config referenceClient call state) ↔ call.retrying.fence = .ok () := by
  rw [reveals.quarantined_iff]
  obtain ⟨compacted, sending⟩ := reveals.sending
  have moved : compacted.markSending (submittedIds request) = (sent, .ok ()) := by
    unfold referenceClient underFence at sending
    dsimp only at sending
    split at sending
    · cases sending
    · exact sending
  have marked := LocalState.markRetry_after_sending moved u64Max
  unfold referenceClient underFence
  dsimp only
  cases call.retrying.fence with
  | error _ => simp
  | ok _ =>
    refine iff_of_true ⟨marked, fun now early limit batch handed => ?_⟩ rfl
    cases handed
    exact LocalState.markRetry_holds marked early

theorem i64Max_lt_u64Max : i64Max < u64Max := by decide

theorem sqlite_quarantined_iff
    (reveals : RevealsEpoch config sqliteClient call state request sent authorityId previous current) :
    Quarantined sqliteClient (submittedIds request) (.authorityChanged authorityId previous current)
      (runOnce config sqliteClient call state) ↔ request.operations = [] ∧ call.retrying.leased = false := by
  rw [reveals.quarantined_iff]
  have passes : (∃ next, sent.transitionOperations (submittedIds request) .retry (some u64Max) = .ok next) ↔
      submittedIds request = [] := SqliteTables.transitionOperations_unfit i64Max_lt_u64Max
  unfold sqliteClient unlessLeased
  dsimp only
  cases call.retrying.leased with
  | true => simp
  | false =>
    refine ⟨fun ⟨marked, _⟩ => ⟨?_, rfl⟩, fun ⟨empty, _⟩ => ⟨?_, ?_⟩⟩
    · exact List.map_eq_nil_iff.mp (passes.mp ⟨_, commitOrRollback_accepted marked⟩)
    · obtain ⟨_, moved⟩ := passes.mpr (List.map_eq_nil_iff.mpr empty)
      simp only [Bool.false_eq_true, if_false, moved]
      rfl
    · intro _ _ _ _ _ _ _ listed
      rw [submittedIds, empty] at listed
      cases listed

theorem stoolap_not_quarantined
    (reveals : RevealsEpoch config stoolapClient call state request sent authorityId previous current) :
    ¬Quarantined stoolapClient (submittedIds request) (.authorityChanged authorityId previous current)
      (runOnce config stoolapClient call state) := by
  rw [reveals.quarantined_iff]
  rintro ⟨marked, _⟩
  have scheduled : ∃ next, sent.scheduleRetry call.retrying (submittedIds request) u64Max = .ok next :=
    ⟨_, commitOrRollback_accepted marked⟩
  obtain ⟨_, scheduled⟩ := scheduled
  exact StoolapTables.scheduleRetry_unfit i64Max_lt_u64Max scheduled

end Stores

/-- Whenever a response shows a new epoch: with the in-memory store the batch is quarantined and the
caller told exactly when the lease still holds; with SQLite exactly when there was no batch and no
lease; with Stoolap never. -/
theorem epochChange_quarantines_iff (config : ClientConfig) (request : SyncRequest) (authorityId : AuthorityId)
    (previous current : AuthorityEpoch) :
    (∀ call state sent,
      RevealsEpoch config referenceClient call state request sent authorityId previous current →
        (Quarantined referenceClient (submittedIds request) (.authorityChanged authorityId previous current)
          (runOnce config referenceClient call state) ↔ call.retrying.fence = .ok ())) ∧
    (∀ call state sent,
      RevealsEpoch config sqliteClient call state request sent authorityId previous current →
        (Quarantined sqliteClient (submittedIds request) (.authorityChanged authorityId previous current)
          (runOnce config sqliteClient call state) ↔
            request.operations = [] ∧ call.retrying.leased = false)) ∧
    (∀ call state sent,
      RevealsEpoch config stoolapClient call state request sent authorityId previous current →
        ¬Quarantined stoolapClient (submittedIds request) (.authorityChanged authorityId previous current)
          (runOnce config stoolapClient call state)) :=
  ⟨fun _ _ _ => reference_quarantined_iff, fun _ _ _ => sqlite_quarantined_iff,
    fun _ _ _ => stoolap_not_quarantined⟩

def newEpochResponse : SyncResponse :=
  { exampleResponse 2 0 0 with directive := .authorityChanged ⟨1⟩ 1 2 }

section Example
variable {store : ClientStore State Surroundings}

def newEpochCall (around : Surroundings) : ExchangeCall State Surroundings where
  scheduling := .ok { maxBatchOps := 10, maxBatchBytes := 1000 }
  compactOutbox state := (state, .ok ())
  batchLimit := 10
  now := 0
  requestId := ⟨1⟩
  encodedRequest _ := .ok 0
  sending := around
  exchange _ := .ok newEpochResponse
  encodedResponse _ := .ok 0
  reconciling := around
  retryDelay := 100
  retryNow := 0
  retrying := around

def exampleRequest (cursor : Option Cursor) (operations : List OperationEnvelope) : SyncRequest where
  protocol := exampleConfig.protocol
  requestId := ⟨1⟩
  session := exampleConfig.session
  cursor
  operations
  limits := exampleConfig.limits

theorem newEpochCall_reveals (handed : store.pendingOperations 0 10 state = .ok operations)
    (sent : (store.markSendingFenced around (operations.map OperationEnvelope.operationId) state).2 = .ok ()) :
    RevealsEpoch exampleConfig store (newEpochCall around) state
      (exampleRequest (store.loadCursor ⟨1⟩ state) operations)
      (store.markSendingFenced around (operations.map OperationEnvelope.operationId) state).1 ⟨1⟩ 1 2 := by
  refine ⟨_, state, newEpochResponse, rfl, rfl, ?_, Prod.ext rfl sent, rfl, rfl⟩
  unfold prepareRequest
  have asked : store.pendingOperations (newEpochCall around : ExchangeCall State Surroundings).now
      (min (newEpochCall around : ExchangeCall State Surroundings).batchLimit 10) state = .ok operations := handed
  rw [asked]
  cases operations <;> rfl

end Example

def waitingOperation {State Surroundings : Type} (store : ClientStore State Surroundings) (around : Surroundings)
    (state : State) : State :=
  (store.appendOperation around (queuedOperation 1 []) state).1

theorem epochChange_quarantines_reference : Quarantined referenceClient [⟨1⟩] (.authorityChanged ⟨1⟩ 1 2)
      (runOnce exampleConfig referenceClient (newEpochCall exampleReferenceCall)
        (waitingOperation referenceClient exampleReferenceCall LocalState.default)) := by
  have handed : referenceClient.pendingOperations 0 10
      (waitingOperation referenceClient exampleReferenceCall LocalState.default) =
        .ok [queuedOperation 1 []] := by decide +kernel
  have sent : (referenceClient.markSendingFenced exampleReferenceCall
      ([queuedOperation 1 []].map OperationEnvelope.operationId)
      (waitingOperation referenceClient exampleReferenceCall LocalState.default)).2 = .ok () := by decide +kernel
  have reveals := newEpochCall_reveals handed sent
  exact ((epochChange_quarantines_iff exampleConfig _ ⟨1⟩ 1 2).1 _ _ _ reveals).mpr rfl

/-- SQLite and Stoolap report that the time does not fit, and hand the batch out again at once. -/
theorem epochChange_leaves_replayable :
    (sqliteClient.pendingOperations 0 10 (runOnce exampleConfig sqliteClient (newEpochCall exampleSqliteCall)
        (waitingOperation sqliteClient exampleSqliteCall SqliteTables.empty)).1 = .ok [queuedOperation 1 []] ∧
      (runOnce exampleConfig sqliteClient (newEpochCall exampleSqliteCall)
        (waitingOperation sqliteClient exampleSqliteCall SqliteTables.empty)).2 =
          .error (.store (.permanent "retry timestamp exceeds SQLite range"))) ∧
    (stoolapClient.pendingOperations 0 10 (runOnce exampleConfig stoolapClient (newEpochCall exampleStoolapCall)
        (waitingOperation stoolapClient exampleStoolapCall StoolapTables.empty)).1 =
          .ok [queuedOperation 1 []] ∧
      (runOnce exampleConfig stoolapClient (newEpochCall exampleStoolapCall)
        (waitingOperation stoolapClient exampleStoolapCall StoolapTables.empty)).2 =
          .error (.store (.permanent "retry timestamp exceeds Stoolap INTEGER range"))) := by
  refine ⟨⟨?_, ?_⟩, ?_, ?_⟩
  all_goals decide +kernel

end Aequora.Client
