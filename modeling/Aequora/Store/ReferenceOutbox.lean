import Aequora.Store.ClientStore

/-! The outbox of the in-memory local store: operations in the order they were appended, with their
states, retry times and dispositions in tables. -/

namespace Aequora.Store

open Std Aequora.Base Aequora.Protocol OutboxState ExtTreeMap

structure ReferenceSurroundings where
  fence : Except StoreError Unit

/-- A call that the fence lets through. -/
def underFence {State Result : Type} (fence : Except StoreError Unit) (state : State)
    (call : State × Except StoreError Result) : State × Except StoreError Result :=
  match fence with
  | .error error => (state, .error error)
  | .ok () => call

namespace LocalState
variable (state : LocalState)

def pendingOperations (now limit : Nat) : List OperationEnvelope :=
  (state.pending.filter fun operation =>
    (state.outboxStates[operation.operationId]?).any isReplayable &&
      (state.retryMetadata[operation.operationId]?).all (fun retry => decide (retry.nextAttemptUnixMs ≤ now)) &&
      (state.scopeState.pendingDisposition operation.operationId).isNone).take limit

def appendOperation (operation : OperationEnvelope) : LocalState × Except StoreError Unit :=
  if operation.operationId ∈ state.original then
    (state, .error (.permanent "operation ID already exists in local outbox"))
  else
    ({ state with
      original := state.original.insert operation.operationId operation
      outboxStates := state.outboxStates.insert operation.operationId .pending
      pending := state.pending ++ [operation] }, .ok ())

def checkReplayable (operation : OperationId) : Except StoreError Unit :=
  match state.outboxStates[operation]? with
  | none => .error (.permanent "operation is missing from the outbox")
  | some current =>
    require (current.isReplayable = true)
      (.permanent "terminal outbox operation cannot transition back to replayable")

section
variable (operations : List OperationId)

/-- All operations are checked before any of them moves. -/
def transitionReplayable (next : OutboxState) :
    Except StoreError LocalState := do
  checkAll state.checkReplayable operations
  return { state with outboxStates := setOutbox state.outboxStates operations next }

/-- One more attempt, counted in 32 bits. -/
def recordRetry (nextAttempt : Nat) (retries : ExtTreeMap OperationId RetryMetadata)
    (operation : OperationId) : ExtTreeMap OperationId RetryMetadata :=
  retries.insert operation
    { attemptCount := (retries[operation]?).elim 1 fun retry => min (retry.attemptCount + 1) 4294967295
      nextAttemptUnixMs := nextAttempt }

def markSending : LocalState × Except StoreError Unit :=
  commitOrRollback state (state.transitionReplayable operations .sending)

def markRetry (nextAttempt : Nat) : LocalState × Except StoreError Unit :=
  commitOrRollback state do
    let moved ← state.transitionReplayable operations .retry
    return { moved with retryMetadata := operations.foldl (recordRetry nextAttempt) moved.retryMetadata }

end

def installSubscription (subscription : Scope.Subscription) : LocalState × Except StoreError Unit :=
  match scopeResult (state.scopeState.install subscription) with
  | .error error => (state, .error error)
  | .ok scopeState => ({ state with scopeState }, .ok ())

def applyScopeTransition (transition : Scope.ScopeTransition) :
    LocalState × Except StoreError Scope.ScopeTransitionOutcome :=
  match scopeResult (state.scopeState.apply transition) with
  | .error error => (state, .error error)
  | .ok (scopeState, outcome) => ({ state with scopeState }, .ok outcome)

end LocalState

def referenceClient : ClientStore LocalState ReferenceSurroundings where
  loadCursor scope state := state.cursors[scope]?
  snapshotProgress scope state := (state.stagedSnapshots[scope]?).map StagedSnapshot.progress
  operationState operation state := state.outboxStates[operation]?
  pendingOperations now limit state := .ok (state.pendingOperations now limit)
  appendOperation _ operation state := state.appendOperation operation
  markSendingFenced around operations state := underFence around.fence state (state.markSending operations)
  markRetryFenced around operations nextAttempt state :=
    underFence around.fence state (state.markRetry operations nextAttempt)
  reconcileFenced around response state := underFence around.fence state (reconcileReference response state)
  stageSnapshotFenced around page state := underFence around.fence state (stageReferenceSnapshot page state)
  scopeState := some {
    installSubscription := fun _ subscription state => state.installSubscription subscription
    applyScopeTransition := fun around transition state =>
      underFence around.fence state (state.applyScopeTransition transition) }

theorem underFence_keeps (property : State → Prop) (before : property state)
    (after : property call.1) : property (underFence fence state call).1 := by
  cases fence with
  | error _ => exact before
  | ok _ => exact after

theorem setOutbox_lookup (states : ExtTreeMap OperationId OutboxState) (operations : List OperationId)
    (next : OutboxState) (operation : OperationId) :
    (setOutbox states operations next)[operation]? =
      if operation ∈ operations then some next else states[operation]? :=
  lookup_foldl_insert_const states operations next operation

namespace LocalState
variable {state : LocalState}

/-- The operation has its final result. -/
def Settled (state : LocalState) (operation : OperationId) : Prop :=
  (state.outboxStates[operation]?).any isTerminal = true

theorem settled_congr {next : LocalState} (same : (next.outboxStates[operation]?).map isReplayable =
      (state.outboxStates[operation]?).map isReplayable) :
    next.Settled operation = state.Settled operation := by
  have negated := congrArg (Option.any not) same
  simp only [Option.any_map, ← isTerminal_eq] at negated
  exact congrArg (· = true) negated

def entry (state : LocalState) (operation : OperationEnvelope) : QueueEntry where
  operation
  due := heldUntil (state.retryMetadata[operation.operationId]?)
    (state.scopeState.pendingDisposition operation.operationId)

def queue (state : LocalState) : List QueueEntry :=
  (state.pending.filter fun operation =>
    (state.outboxStates[operation.operationId]?).any isReplayable).map state.entry

/-- Pending operations have identities of their own, all of them known. -/
structure Distinct (state : LocalState) : Prop where
  unique : (state.pending.map OperationEnvelope.operationId).Nodup
  original : ∀ operation ∈ state.pending, operation.operationId ∈ state.original

theorem Distinct.append (distinct : state.Distinct)
    (fresh : operation.operationId ∉ state.original) : (state.appendOperation operation).1.Distinct := by
  rw [appendOperation, if_neg fresh]
  constructor
  · rw [List.map_append, List.map_singleton, ← List.concat_eq_append]
    refine distinct.unique.concat fun found => ?_
    obtain ⟨waiting, member, same⟩ := List.mem_map.mp found
    exact fresh (same ▸ distinct.original waiting member)
  · intro waiting member
    rw [mem_insert]
    rcases List.mem_append.mp member with earlier | last
    · exact .inr (distinct.original waiting earlier)
    · rw [List.mem_singleton.mp last]
      exact .inl ReflOrd.compare_self

theorem Distinct.filtered {next : LocalState} (distinct : state.Distinct)
    (pending : next.pending = state.pending.filter keep)
    (known : ∀ operation ∈ next.pending, operation.operationId ∈ state.original →
      operation.operationId ∈ next.original) : next.Distinct := by
  constructor
  · rw [pending]
    exact distinct.unique.sublist (List.filter_sublist.map _)
  · intro operation member
    refine known operation member (distinct.original operation ?_)
    rw [pending] at member
    exact List.mem_of_mem_filter member

/-- The outbox after appends in the order of their dependencies. -/
structure Queued (appended : List OperationId) (state : LocalState) : Prop where
  known : ∀ operation ∈ appended, operation ∈ state.original
  unique : (state.pending.map OperationEnvelope.operationId).Nodup
  original : ∀ operation ∈ state.pending, operation.operationId ∈ state.original
  accounted : ∀ operation ∈ state.original, state.Settled operation ∨
    ∃ waiting ∈ state.pending, waiting.operationId = operation
  replayable : ∀ operation ∈ state.pending,
    (state.outboxStates[operation.operationId]?).any isReplayable = true
  supported : Supported OperationEnvelope.operationId dependenciesOf
    (fun needed => needed ∈ state.original ∧ state.Settled needed) state.pending

theorem pendingOperations_eq (now limit : Nat) :
    state.pendingOperations now limit =
      (selection QueueEntry.due now limit state.queue).map QueueEntry.operation := by
  have forgotten : QueueEntry.operation ∘ state.entry = id := rfl
  rw [pendingOperations, selection, queue, List.filter_map, ← List.map_take, List.map_map, forgotten,
    List.map_id, List.filter_filter]
  congr 2
  funext operation
  rw [Function.comp_apply, entry, heldUntil_any, Bool.and_assoc, Bool.and_comm]

namespace Queued
theorem distinct (queued : state.Queued appended) : state.Distinct := ⟨queued.unique, queued.original⟩

theorem queue_eq (queued : state.Queued appended) : state.queue = state.pending.map state.entry := by
  rw [queue, List.filter_eq_self.mpr queued.replayable]

theorem initial : LocalState.default.Queued [] where
  known _ member := nomatch member
  unique := List.nodup_nil
  original _ member := nomatch member
  accounted _ member := absurd member not_mem_empty
  replayable _ member := nomatch member
  supported := .nil

theorem append (queued : state.Queued appended)
    (fresh : operation.operationId ∉ state.original)
    (follows : ∀ needed ∈ dependenciesOf operation, needed ∈ appended) :
    (state.appendOperation operation).1.Queued (operation.operationId :: appended) := by
  have distinct := queued.distinct.append fresh
  rw [appendOperation, if_neg fresh] at distinct ⊢
  -- What was known before keeps its state.
  have kept : ∀ known ∈ state.original,
      (state.outboxStates.insert operation.operationId .pending)[known]? = state.outboxStates[known]? := by
    intro known member
    have different : operation.operationId ≠ known := fun same => fresh (same ▸ member)
    rw [lookup_insert, if_neg different]
  have found : ∀ needed ∈ state.original, state.Settled needed →
      ((state.outboxStates.insert operation.operationId .pending)[needed]?).any isTerminal = true :=
    fun needed member settled => by rwa [kept needed member]
  refine ⟨?_, distinct.unique, distinct.original, ?_, ?_, ?_⟩
  · intro known member
    rw [mem_insert]
    rcases List.mem_cons.mp member with rfl | earlier
    · exact .inl ReflOrd.compare_self
    · exact .inr (queued.known known earlier)
  · intro known member
    rcases mem_insert.mp member with same | earlier
    · exact .inr ⟨operation, by simp, LawfulEqOrd.eq_of_compare same⟩
    · refine (queued.accounted known earlier).imp (found known earlier) fun ⟨waiting, held, same⟩ => ?_
      exact ⟨waiting, List.mem_append_left _ held, same⟩
  · intro waiting member
    rcases List.mem_append.mp member with earlier | last
    · rw [kept _ (queued.original waiting earlier)]
      exact queued.replayable waiting earlier
    · rw [List.mem_singleton.mp last, lookup_insert, if_pos rfl]
      rfl
  · have earlier : Supported OperationEnvelope.operationId dependenciesOf
        (fun needed => needed ∈ state.original.insert operation.operationId operation ∧
          ((state.outboxStates.insert operation.operationId .pending)[needed]?).any
            isTerminal = true) state.pending :=
      queued.supported.mono fun needed ⟨member, settled⟩ =>
        ⟨mem_insert.mpr (.inr member), found needed member settled⟩
    refine earlier.snoc fun needed asked => ?_
    have member := queued.known needed (follows needed asked)
    refine (queued.accounted needed member).imp_left fun settled => ?_
    exact ⟨mem_insert.mpr (.inr member), found needed member settled⟩

theorem restated {next : LocalState} (queued : state.Queued appended) (pending : next.pending = state.pending)
    (original : next.original = state.original)
    (same : ∀ operation : OperationId, (next.outboxStates[operation]?).map isReplayable =
      (state.outboxStates[operation]?).map isReplayable) : next.Queued appended := by
  have replayable (operation : OperationId) : (next.outboxStates[operation]?).any isReplayable =
      (state.outboxStates[operation]?).any isReplayable := by
    simpa only [Option.any_map, id_eq] using congrArg (Option.any id) (same operation)
  have settled : next.Settled = state.Settled := funext fun operation => settled_congr (same operation)
  obtain ⟨_, _, _, _, ready, _⟩ := queued
  constructor
  · rwa [original]
  · rwa [pending]
  · rwa [pending, original]
  · rwa [settled, pending, original]
  · simpa only [replayable, pending] using ready
  · rwa [settled, pending, original]

end Queued

theorem transitionReplayable_same
    (replayable : next.isReplayable = true) (moved : state.transitionReplayable operations next = .ok after) :
    after = { state with outboxStates := setOutbox state.outboxStates operations next } ∧
      ∀ operation : OperationId, (after.outboxStates[operation]?).map isReplayable =
        (state.outboxStates[operation]?).map isReplayable := by
  rw [transitionReplayable, bind_eq_ok_iff] at moved
  obtain ⟨_, checked, moved⟩ := moved
  cases moved
  refine ⟨rfl, fun operation => ?_⟩
  rw [setOutbox_lookup]
  split
  · rename_i listed
    have passed := checkAll_eq_ok.mp checked operation listed
    unfold checkReplayable at passed
    cases found : state.outboxStates[operation]? with
    | none => rw [found] at passed; cases passed
    | some _ =>
      rw [found] at passed
      rw [Option.map_some, Option.map_some, replayable, require_eq_ok.mp passed]
  · rfl

theorem Queued.markSending (queued : state.Queued appended) : (state.markSending operations).1.Queued appended := by
  refine commitOrRollback_keeps (Queued appended) queued fun after moved => ?_
  obtain ⟨rfl, same⟩ := transitionReplayable_same rfl moved
  exact queued.restated rfl rfl same

theorem Queued.markRetry {nextAttempt : Nat}
    (queued : state.Queued appended) : (state.markRetry operations nextAttempt).1.Queued appended := by
  refine commitOrRollback_keeps (Queued appended) queued fun after retried => ?_
  obtain ⟨_, transitioned, recorded⟩ := bind_eq_ok_iff.mp retried
  cases recorded
  obtain ⟨rfl, same⟩ := transitionReplayable_same rfl transitioned
  exact queued.restated rfl rfl same

theorem markRetry_after_sending (sending : state.markSending operations = (sent, .ok ())) (nextAttempt : Nat) :
    (sent.markRetry operations nextAttempt).2 = .ok () := by
  have moved : state.transitionReplayable operations .sending = .ok sent := by
    have accepted := commitOrRollback_accepted (congrArg Prod.snd sending)
    rwa [show (commitOrRollback state (state.transitionReplayable operations .sending)).1 = sent from
      congrArg Prod.fst sending] at accepted
  obtain ⟨rfl, _⟩ := transitionReplayable_same rfl moved
  have checked : checkAll (checkReplayable { state with
      outboxStates := setOutbox state.outboxStates operations .sending }) operations = .ok () := by
    refine checkAll_eq_ok.mpr fun operation listed => ?_
    simp only [checkReplayable, setOutbox_lookup, if_pos listed]
    rfl
  rw [markRetry, transitionReplayable, checked]
  rfl

theorem recordRetry_lookup (nextAttempt : Nat) (operations : List OperationId)
    (retries : ExtTreeMap OperationId RetryMetadata) (operation : OperationId) :
    ((operations.foldl (recordRetry nextAttempt) retries)[operation]?).map RetryMetadata.nextAttemptUnixMs =
      if operation ∈ operations then some nextAttempt
      else (retries[operation]?).map RetryMetadata.nextAttemptUnixMs := by
  apply lookup_foldl_insert
  intro _ _
  exact ⟨_, rfl, rfl⟩

theorem markRetry_holds (marked : (state.markRetry operations nextAttempt).2 = .ok ()) (early : now < nextAttempt) :
    ∀ operation ∈ (state.markRetry operations nextAttempt).1.pendingOperations now limit,
      operation.operationId ∉ operations := by
  intro operation handed listed
  obtain ⟨moved, _, recorded⟩ := bind_eq_ok_iff.mp (commitOrRollback_accepted marked)
  have retries : (state.markRetry operations nextAttempt).1.retryMetadata =
      operations.foldl (recordRetry nextAttempt) moved.retryMetadata :=
    congrArg retryMetadata (Except.ok.inj recorded).symm
  have ready := (List.mem_filter.mp (List.mem_of_mem_take handed)).2
  simp only [Bool.and_eq_true] at ready
  have time := recordRetry_lookup nextAttempt operations moved.retryMetadata operation.operationId
  rw [if_pos listed, ← retries] at time
  obtain ⟨_, found, rfl⟩ := Option.map_eq_some_iff.mp time
  have due := ready.1.2
  rw [found, Option.all_some] at due
  exact Nat.not_le_of_lt early (of_decide_eq_true due)

theorem applyChanges_outbox (changes : List RemoteChange) :
    (changes.foldl applyChange state).pending = state.pending ∧
      (changes.foldl applyChange state).original = state.original ∧
      (changes.foldl applyChange state).outboxStates = state.outboxStates := by
  induction changes generalizing state with
  | nil => exact ⟨rfl, rfl, rfl⟩
  | cons _ _ ih => exact ih

/-- A response that is accepted settles the operations it reports and removes them from the queue. -/
theorem reconcileReference_outbox (response : SyncResponse) :
    (reconcileReference response state).1 = state ∨
      ((reconcileReference response state).1.pending =
          state.pending.filter fun operation => decide (operation.operationId ∉ terminalIds response)) ∧
        (reconcileReference response state).1.original = state.original ∧
        ∀ operation, if operation ∈ terminalIds response
          then (reconcileReference response state).1.Settled operation
          else (reconcileReference response state).1.outboxStates[operation]? = state.outboxStates[operation]? := by
  unfold reconcileReference
  dsimp only
  split
  · exact .inl rfl
  · refine .inr ⟨?_, ?_, fun operation => ?_⟩
    · exact (applyChanges_outbox _).1
    · exact (applyChanges_outbox _).2.1
    · simp only [Settled, (applyChanges_outbox _).2.2, setOutbox_lookup, terminalIds, List.mem_append]
      by_cases conflicting : operation ∈ response.conflicts.map Conflict.operationId
      · simp only [conflicting, or_true, if_true]
        rfl
      · by_cases rejected : operation ∈ response.rejected.map OperationRejection.operationId
        · simp only [conflicting, rejected, or_true, or_false, if_true, if_false]
          rfl
        · by_cases acknowledged : operation ∈ response.acknowledged.map OperationAck.operationId
          · simp only [conflicting, rejected, acknowledged, or_false, if_true, if_false]
            rfl
          · simp only [conflicting, rejected, acknowledged, or_self, if_false]

theorem Queued.reconcile {response : SyncResponse}
    (queued : state.Queued appended) : (reconcileReference response state).1.Queued appended := by
  rcases reconcileReference_outbox response with same | ⟨pending, original, states⟩
  · rwa [same]
  generalize (reconcileReference response state).1 = next at pending original states ⊢
  have reported : ∀ operation ∈ terminalIds response, next.Settled operation := fun operation listed => by
    simpa only [if_pos listed] using states operation
  have unchanged : ∀ operation ∉ terminalIds response,
      next.outboxStates[operation]? = state.outboxStates[operation]? := fun operation unlisted => by
    simpa only [if_neg unlisted] using states operation
  -- Results are final.
  have stays : ∀ operation, state.Settled operation → next.Settled operation := fun operation settled => by
    by_cases listed : operation ∈ terminalIds response
    · exact reported operation listed
    · rwa [Settled, unchanged operation listed]
  have distinct : next.Distinct := queued.distinct.filtered pending fun _ _ known => original ▸ known
  refine ⟨?_, distinct.unique, distinct.original, ?_, ?_, ?_⟩
  · rw [original]
    exact queued.known
  · rw [pending, original]
    intro operation known
    by_cases listed : operation ∈ terminalIds response
    · exact .inl (reported operation listed)
    · refine (queued.accounted operation known).imp (stays operation) fun ⟨waiting, member, same⟩ => ?_
      exact ⟨waiting, List.mem_filter.mpr ⟨member, by simpa [same] using listed⟩, same⟩
  · rw [pending]
    intro waiting member
    obtain ⟨member, unlisted⟩ := List.mem_filter.mp member
    rw [unchanged _ (of_decide_eq_true unlisted)]
    exact queued.replayable waiting member
  · rw [pending, original]
    refine queued.supported.filter fun waiting member _ needed asked => ⟨?_, fun other present same => ?_⟩
    · exact fun ⟨known, settled⟩ => ⟨known, stays needed settled⟩
    · by_cases listed : needed ∈ terminalIds response
      · exact .inl ⟨same ▸ queued.original other present, reported needed listed⟩
      · exact .inr (by simpa [same] using listed)

theorem Queued.installSubscription {subscription : Scope.Subscription}
    (queued : state.Queued appended) : (state.installSubscription subscription).1.Queued appended := by
  unfold LocalState.installSubscription
  split
  · exact queued
  · exact queued.restated rfl rfl fun _ => rfl

theorem Queued.applyScopeTransition {transition : Scope.ScopeTransition}
    (queued : state.Queued appended) : (state.applyScopeTransition transition).1.Queued appended := by
  unfold LocalState.applyScopeTransition
  split
  · exact queued
  · exact queued.restated rfl rfl fun _ => rfl

theorem Queued.step (queued : history.state.Queued history.appended) (follows : action.Follows history) :
    (referenceClient.step history action).state.Queued (referenceClient.step history action).appended := by
  cases action with
  | append around operation =>
    refine ClientStore.append_keeps (fun (state : LocalState) appended => state.Queued appended) (fun accepted => ?_)
      fun refused => ?_
    · refine queued.append (fun known => ?_) follows
      simp [referenceClient, appendOperation, known] at accepted
    · by_cases known : operation.operationId ∈ history.state.original
      · simpa [referenceClient, appendOperation, known] using queued
      · simp [referenceClient, appendOperation, known] at refused
  | markSending around operations => exact underFence_keeps (Queued history.appended) queued queued.markSending
  | markRetry around _ _ => exact underFence_keeps (Queued history.appended) queued queued.markRetry
  | reconcile around _ => exact underFence_keeps (Queued history.appended) queued queued.reconcile
  | installSubscription around _ => exact queued.installSubscription
  | applyScopeTransition _ _ => exact underFence_keeps (Queued history.appended) queued queued.applyScopeTransition

/-- The in-memory store keeps its outbox as a queue, and answers at any time. -/
def outboxRefinement : OutboxRefinement referenceClient LocalState.default where
  answers _ := True
  queue
  pending _ := congrArg _ (pendingOperations_eq _ _)
  refused _ := trivial
  Kept history := history.state.Queued history.appended
  initial := Queued.initial
  step := Queued.step
  supported queued := by
    rw [queued.queue_eq]
    exact supported_map.mpr (queued.supported.mono fun _ held => held.2)
  distinct {history} queued first inside second within same := by
    rw [queued.queue_eq] at inside within
    obtain ⟨one, member, rfl⟩ := List.mem_map.mp inside
    obtain ⟨other, present, rfl⟩ := List.mem_map.mp within
    rw [List.inj_on_of_nodup_map queued.unique member present same]
  timely _ _ _ _ _ := trivial

end LocalState

end Aequora.Store
