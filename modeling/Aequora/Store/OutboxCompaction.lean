import Aequora.Queue.CompactionPlan
import Aequora.Store.ReferenceOutbox

/-! Compaction of the outbox of the in-memory local store. The planner sees only the first pending
operations, so a compaction is safe exactly when no operation behind them depends on one that it
removes. -/

namespace Aequora.Store

open Std Aequora.Base Aequora.Protocol ExtTreeMap

structure LocalOutbox where
  state : LocalState
  everSent : Finset OperationId
  supersessions : List Queue.Supersession

namespace LocalOutbox

def default : LocalOutbox where
  state := .default
  everSent := ∅
  supersessions := []

def queueResult {Value : Type} : Except Queue.QueueError Value → Except StoreError Value
  | .ok value => .ok value
  | .error error => .error (.permanent error.text)

section Calls
variable (codec : Queue.EnvelopeCodec) (outbox : LocalOutbox)

/-- An operation that was ever sent is immutable and carries its hash. -/
def queueEntry (operation : OperationEnvelope) (index : Nat) : Except StoreError Queue.QueueEntry :=
  if operation.operationId ∈ outbox.everSent then do
    let hash ← queueResult (Queue.semanticEnvelopeHash codec operation)
    return {
      localSequence := saturatingAdd index 1
      operation
      mutability := .immutablePossiblyDelivered
      immutableHash := some hash
      cancellation := none }
  else
    .ok {
      localSequence := saturatingAdd index 1
      operation
      mutability := .mutableUnsent
      immutableHash := none
      cancellation := none }

def queueEntries (maxOperations : Nat) : Except StoreError (List Queue.QueueEntry) :=
  (outbox.state.pending.take maxOperations).zipIdx.mapM fun (operation, index) =>
    outbox.queueEntry codec operation index

def applyPlan (plan : Queue.CompactionPlan) : LocalOutbox where
  state := { outbox.state with
    pending := outbox.state.pending.filter fun operation => decide (operation.operationId ∉ plan.removeOperations)
    original := plan.removeOperations.foldl erase outbox.state.original
    outboxStates := plan.removeOperations.foldl erase outbox.state.outboxStates
    retryMetadata := plan.removeOperations.foldl erase outbox.state.retryMetadata }
  everSent := outbox.everSent
  supersessions := outbox.supersessions ++ plan.supersessions

section
variable (registry : Queue.OptimizationRegistry) (maxOperations : Nat)

def planCompaction : Except StoreError Queue.CompactionPlan := do
  let entries ← outbox.queueEntries codec maxOperations
  queueResult (Queue.planCompaction codec entries registry maxOperations)

def compactReferenceOutbox : LocalOutbox × Except StoreError Queue.CompactionPlan :=
  match outbox.planCompaction codec registry maxOperations with
  | .error error => (outbox, .error error)
  | .ok plan => (outbox.applyPlan plan, .ok plan)

end

def compactOutboxFenced (fence : Except StoreError Unit) (registry : Queue.OptimizationRegistry)
    (maxOperations : Nat) : LocalOutbox × Except StoreError Queue.CompactionPlan :=
  underFence fence outbox (outbox.compactReferenceOutbox codec registry maxOperations)

/-- Give the first operation with the rewritten identity its new base. -/
def rebaseFirst (rewrite : Queue.RebaseRewrite) :
    List OperationEnvelope → Option (OperationEnvelope × List OperationEnvelope)
  | [] => none
  | operation :: rest =>
    if operation.operationId = rewrite.operationId then
      let rebased := { operation with baseVersion := rewrite.newBase }
      some (rebased, rebased :: rest)
    else (rebaseFirst rewrite rest).map fun (rebased, rest) => (rebased, operation :: rest)

/-- Rewrites made before one fails stay. -/
def applyRewrites : List Queue.RebaseRewrite → LocalState → LocalState × Except StoreError Unit
  | [], state => (state, .ok ())
  | rewrite :: rest, state =>
    match rebaseFirst rewrite state.pending with
    | none => (state, .error (.permanent "rebase operation disappeared"))
    | some (rebased, pending) =>
      applyRewrites rest { state with
        pending
        original := state.original.insert rewrite.operationId rebased }

section
variable (registry : Queue.OptimizationRegistry) (targets : List Queue.RebaseTarget) (maxOperations : Nat)

def planRebase : Except StoreError Queue.RebasePlan := do
  let entries ← outbox.queueEntries codec maxOperations
  queueResult (Queue.planRebase codec entries targets registry)

def rebaseReferenceOutbox : LocalOutbox × Except StoreError Queue.RebasePlan :=
  match outbox.planRebase codec registry targets maxOperations with
  | .error error => (outbox, .error error)
  | .ok plan =>
    let (state, result) := applyRewrites plan.rewrites outbox.state
    ({ outbox with state }, result.map fun _ => plan)

end

/-- The operations of a successful mark count as sent from then on. -/
def marking (operations : List OperationId) (call : LocalState × Except StoreError Unit) :
    LocalOutbox × Except StoreError Unit :=
  match call with
  | (state, .error error) => ({ outbox with state }, .error error)
  | (state, .ok ()) =>
    ({ outbox with state, everSent := outbox.everSent ∪ operations.toFinset }, .ok ())

section
variable (fence : Except StoreError Unit) (operations : List OperationId)

def markSendingFenced : LocalOutbox × Except StoreError Unit :=
  underFence fence outbox (outbox.marking operations (outbox.state.markSending operations))

def markRetryFenced (nextAttempt : Nat) :
    LocalOutbox × Except StoreError Unit :=
  underFence fence outbox (outbox.marking operations (outbox.state.markRetry operations nextAttempt))

end

end Calls

end LocalOutbox

/-- The calls that change the outbox or the state it is kept in. -/
inductive OutboxCall where
  | append (operation : OperationEnvelope)
  | markSending (fence : Except StoreError Unit) (operations : List OperationId)
  | markRetry (fence : Except StoreError Unit) (operations : List OperationId) (nextAttempt : Nat)
  | reconcile (fence : Except StoreError Unit) (response : SyncResponse)
  | stageSnapshot (fence : Except StoreError Unit) (page : BootstrapResponse)
  | installSubscription (subscription : Scope.Subscription)
  | applyScopeTransition (fence : Except StoreError Unit) (transition : Scope.ScopeTransition)
  | compact (fence : Except StoreError Unit) (registry : Queue.OptimizationRegistry) (maxOperations : Nat)
  | rebase (fence : Except StoreError Unit) (registry : Queue.OptimizationRegistry)
      (targets : List Queue.RebaseTarget) (maxOperations : Nat)

namespace LocalOutbox
variable (codec : Queue.EnvelopeCodec)

def step (outbox : LocalOutbox) : OutboxCall → LocalOutbox
  | .append operation => { outbox with state := (outbox.state.appendOperation operation).1 }
  | .markSending fence operations => (outbox.markSendingFenced fence operations).1
  | .markRetry fence operations nextAttempt => (outbox.markRetryFenced fence operations nextAttempt).1
  | .reconcile fence response =>
    { outbox with state := (underFence fence outbox.state (reconcileReference response outbox.state)).1 }
  | .stageSnapshot fence page =>
    { outbox with state := (underFence fence outbox.state (stageReferenceSnapshot page outbox.state)).1 }
  | .installSubscription subscription =>
    { outbox with state := (outbox.state.installSubscription subscription).1 }
  | .applyScopeTransition fence transition =>
    { outbox with state := (underFence fence outbox.state (outbox.state.applyScopeTransition transition)).1 }
  | .compact fence registry maxOperations => (outbox.compactOutboxFenced codec fence registry maxOperations).1
  | .rebase fence registry targets maxOperations =>
    (underFence fence outbox (outbox.rebaseReferenceOutbox codec registry targets maxOperations)).1

/-- The operations that a call hands to a transport attempt. -/
def sends (outbox : LocalOutbox) : OutboxCall → List OperationId
  | .markSending fence operations =>
    if (outbox.markSendingFenced fence operations).2 = .ok () then operations else []
  | .markRetry fence operations nextAttempt =>
    if (outbox.markRetryFenced fence operations nextAttempt).2 = .ok () then operations else []
  | _ => []

def reached (calls : List OutboxCall) : LocalOutbox := Run.final (step codec) .default calls

def sent (calls : List OutboxCall) : List OperationId := Run.trace (step codec) sends .default calls

/-- The operation was pending before and is no longer. -/
def Removed (before after : LocalOutbox) (operation : OperationId) : Prop :=
  (∃ waiting ∈ before.state.pending, waiting.operationId = operation) ∧
    ∀ waiting ∈ after.state.pending, waiting.operationId ≠ operation

/-- No pending operation depends on a removed one, and no removed one was sent. -/
structure SafelyCompacted (sent : List OperationId) (before after : LocalOutbox) : Prop where
  kept : ∀ waiting ∈ after.state.pending, ∀ needed ∈ dependenciesOf waiting, ¬Removed before after needed
  unsent : ∀ operation, Removed before after operation → operation ∉ sent

/-! The entries that a plan is made from, and what it removes. -/

section Planned
variable {codec} {outbox : LocalOutbox}

theorem queueResult_eq_ok : queueResult result = .ok value ↔ result = .ok value := by
  cases result <;> simp [queueResult]

theorem queueEntry_eq_ok (made : outbox.queueEntry codec operation index = .ok entry) :
    entry.operation = operation ∧
      (entry.mutability = .mutableUnsent ↔ operation.operationId ∉ outbox.everSent) := by
  unfold queueEntry at made
  split at made
  · rename_i known
    obtain ⟨_, -, made⟩ := bind_eq_ok_iff.mp made
    cases made
    exact ⟨rfl, iff_of_false (fun unsent => by cases unsent) (not_not_intro known)⟩
  · rename_i fresh
    cases made
    exact ⟨rfl, iff_of_true rfl fresh⟩

theorem queueEntries_eq_ok (made : outbox.queueEntries codec maxOperations = .ok entries) :
    entries.map Queue.QueueEntry.operation = outbox.state.pending.take maxOperations ∧
      ∀ entry ∈ entries, entry.mutability = .mutableUnsent ↔ entry.id ∉ outbox.everSent := by
  have general : ∀ operations entries,
      List.Forall₂ (fun item entry => outbox.queueEntry codec item.1 item.2 = .ok entry) operations entries →
      entries.map Queue.QueueEntry.operation = operations.map Prod.fst ∧
        ∀ entry ∈ entries, entry.mutability = .mutableUnsent ↔ entry.id ∉ outbox.everSent := by
    intro _ entries each
    induction each with
    | nil => simp
    | cons first _ ih =>
      obtain ⟨same, unsent⟩ := queueEntry_eq_ok first
      rw [List.map_cons, List.map_cons, same, ih.1, List.forall_mem_cons]
      refine ⟨rfl, ?_, ih.2⟩
      rw [Queue.QueueEntry.id, same]
      exact unsent
  have spec := general _ entries (mapM_eq_ok.mp made)
  rwa [List.zipIdx_map_fst] at spec

theorem planCompaction_eq_ok (planned : outbox.planCompaction codec registry maxOperations = .ok plan) :
    ∀ removed ∈ plan.removeOperations, removed ∉ outbox.everSent ∧
      (∃ waiting ∈ outbox.state.pending.take maxOperations, waiting.operationId = removed) ∧
      ∀ waiting ∈ outbox.state.pending.take maxOperations, removed ∉ dependenciesOf waiting := by
  intro removed listed
  obtain ⟨_, made, planned⟩ := bind_eq_ok_iff.mp planned
  obtain ⟨window, unsent⟩ := queueEntries_eq_ok made
  obtain ⟨entry, removable, rfl⟩ := Queue.planCompaction_removes (queueResult_eq_ok.mp planned) removed listed
  rw [← window]
  refine ⟨(unsent entry removable.member).mp removable.unsent, ?_, ?_⟩
  · exact ⟨entry.operation, List.mem_map_of_mem removable.member, rfl⟩
  · intro _ member needed
    obtain ⟨other, present, rfl⟩ := List.mem_map.mp member
    refine removable.unneeded ?_
    rw [Queue.dependentIds, List.mem_toFinset, List.mem_flatMap]
    exact ⟨other, present, needed⟩

theorem compactOutboxFenced_eq_ok
    (compacted : (outbox.compactOutboxFenced codec fence registry maxOperations).2 = .ok plan) :
    outbox.planCompaction codec registry maxOperations = .ok plan ∧
      (outbox.compactOutboxFenced codec fence registry maxOperations).1 = outbox.applyPlan plan := by
  unfold compactOutboxFenced compactReferenceOutbox underFence at *
  cases fence with
  | error error => cases compacted
  | ok _ =>
    cases planned : outbox.planCompaction codec registry maxOperations with
    | error _ =>
      rw [planned] at compacted
      cases compacted
    | ok _ =>
      rw [planned] at compacted
      cases compacted
      exact ⟨rfl, rfl⟩

end Planned

/-! What a call does to the operations and their states. -/

section Effect
variable {codec} {outbox : LocalOutbox}

def appends (outbox : LocalOutbox) : OutboxCall → List OperationId
  | .append operation => if operation.operationId ∈ outbox.state.original then [] else [operation.operationId]
  | _ => []

def reports : OutboxCall → List OperationId
  | .reconcile _ response => terminalIds response
  | _ => []

/-- Everything that a call may do to the outbox, given the operations it reports on and those it appends. -/
inductive Effect (reported : List OperationId) (before : LocalState) : List OperationId → LocalState → Prop where
  | marked
      (states : ∀ operation : OperationId, (after.outboxStates[operation]?).map OutboxState.isReplayable =
        (before.outboxStates[operation]?).map OutboxState.isReplayable)
      (pending : after.pending = before.pending) (original : after.original = before.original) :
      Effect reported before [] after
  | appended (operation : OperationEnvelope) (fresh : operation.operationId ∉ before.original)
      (states : after.outboxStates = before.outboxStates.insert operation.operationId .pending)
      (pending : after.pending = before.pending ++ [operation])
      (original : after.original = before.original.insert operation.operationId operation) :
      Effect reported before [operation.operationId] after
  | settled
      (states : ∀ operation, if operation ∈ reported then after.Settled operation
        else after.outboxStates[operation]? = before.outboxStates[operation]?)
      (pending : after.pending =
        before.pending.filter fun operation => decide (operation.operationId ∉ reported))
      (original : after.original = before.original) : Effect reported before [] after
  | removed (operations : List OperationId)
      (waiting : ∀ operation ∈ operations, ∃ entry ∈ before.pending, entry.operationId = operation)
      (states : after.outboxStates = operations.foldl erase before.outboxStates)
      (pending : after.pending = before.pending.filter fun operation => decide (operation.operationId ∉ operations))
      (original : after.original = operations.foldl erase before.original) :
      Effect reported before [] after
  | rebased (rewrites : List Queue.RebaseRewrite) : Effect reported before [] (applyRewrites rewrites before).1

theorem Effect.none (reported : List OperationId) (state : LocalState) : Effect reported state [] state :=
  .marked (fun _ => rfl) rfl rfl

section
variable (state : LocalState)

theorem markSending_effect (operations : List OperationId) :
    Effect [] state [] (state.markSending operations).1 := by
  refine commitOrRollback_keeps (Effect [] state []) (.none [] state) fun after moved => ?_
  obtain ⟨rfl, same⟩ := LocalState.transitionReplayable_same rfl moved
  exact .marked same rfl rfl

theorem markRetry_effect (operations : List OperationId) (nextAttempt : Nat) :
    Effect [] state [] (state.markRetry operations nextAttempt).1 := by
  refine commitOrRollback_keeps (Effect [] state []) (.none [] state) fun after retried => ?_
  obtain ⟨_, transitioned, recorded⟩ := bind_eq_ok_iff.mp retried
  cases recorded
  obtain ⟨rfl, same⟩ := LocalState.transitionReplayable_same rfl transitioned
  exact .marked same rfl rfl

theorem reconcileReference_effect (response : SyncResponse) :
    Effect (terminalIds response) state [] (reconcileReference response state).1 := by
  rcases LocalState.reconcileReference_outbox response with same | ⟨pending, original, states⟩
  · rw [same]
    exact .none _ state
  · exact .settled states pending original

theorem stageReferenceSnapshot_effect (page : BootstrapResponse) :
    Effect [] state [] (stageReferenceSnapshot page state).1 := by
  unfold stageReferenceSnapshot
  dsimp only
  split
  · exact .marked (fun _ => rfl) rfl rfl
  · split <;> exact .marked (fun _ => rfl) rfl rfl

end

theorem marking_state (operations : List OperationId) (call : LocalState × Except StoreError Unit) :
    (outbox.marking operations call).1.state = call.1 := by
  unfold marking
  split <;> rfl

theorem step_effect (codec : Queue.EnvelopeCodec) (outbox : LocalOutbox) (call : OutboxCall) :
    Effect (reports call) outbox.state (outbox.appends call) (outbox.step codec call).state := by
  have still : ∀ reported, Effect reported outbox.state [] outbox.state := fun reported => .none reported _
  cases call with
  | append operation =>
    by_cases known : operation.operationId ∈ outbox.state.original
    · simpa only [step, appends, LocalState.appendOperation, if_pos known] using still _
    · simp only [step, appends, LocalState.appendOperation, if_neg known]
      exact .appended operation known rfl rfl rfl
  | markSending fence operations =>
    refine underFence_keeps (fun next : LocalOutbox => Effect [] outbox.state [] next.state) (still []) ?_
    rw [marking_state]
    exact markSending_effect ..
  | markRetry fence _ _ =>
    refine underFence_keeps (fun next : LocalOutbox => Effect [] outbox.state [] next.state) (still []) ?_
    rw [marking_state]
    exact markRetry_effect ..
  | reconcile fence response =>
    exact underFence_keeps (Effect (terminalIds response) outbox.state []) (still _) (reconcileReference_effect ..)
  | stageSnapshot fence _ =>
    exact underFence_keeps (Effect [] outbox.state []) (still []) (stageReferenceSnapshot_effect ..)
  | installSubscription _ =>
    simp only [step, appends, LocalState.installSubscription]
    split
    · exact still []
    · exact .marked (fun _ => rfl) rfl rfl
  | applyScopeTransition fence _ =>
    refine underFence_keeps (Effect [] outbox.state []) (still []) ?_
    unfold LocalState.applyScopeTransition
    split
    · exact still []
    · exact .marked (fun _ => rfl) rfl rfl
  | compact fence registry maxOperations =>
    refine underFence_keeps (fun next : LocalOutbox => Effect [] outbox.state [] next.state) (still []) ?_
    unfold compactReferenceOutbox
    cases planned : outbox.planCompaction codec registry maxOperations with
    | error _ => exact still []
    | ok plan =>
      refine .removed plan.removeOperations (fun operation listed => ?_) rfl rfl rfl
      obtain ⟨_, ⟨waiting, member, same⟩, _⟩ := planCompaction_eq_ok planned operation listed
      exact ⟨waiting, List.mem_of_mem_take member, same⟩
  | rebase _ _ _ _ =>
    refine underFence_keeps (fun next : LocalOutbox => Effect [] outbox.state [] next.state) (still []) ?_
    unfold rebaseReferenceOutbox
    split
    · exact still []
    · exact .rebased _

end Effect

/-! How a call changes the pending operations and the record of the originals. -/

section Moves
variable {codec}

/-- What a call may do to the pending operations and their originals. -/
inductive Moves (before after : LocalState) : Prop where
  | kept (pending : after.pending = before.pending) (original : after.original = before.original)
  | appended (operation : OperationEnvelope) (fresh : operation.operationId ∉ before.original)
      (pending : after.pending = before.pending ++ [operation])
      (original : after.original = before.original.insert operation.operationId operation)
  | filtered (keep : OperationEnvelope → Bool) (pending : after.pending = before.pending.filter keep)
      (original : ∀ operation ∈ after.pending,
        after.original[operation.operationId]? = before.original[operation.operationId]?)
  | rebased (rewrites : List Queue.RebaseRewrite) (applied : after = (applyRewrites rewrites before).1)

theorem Effect.moves (effect : Effect reported before added after) : Moves before after := by
  cases effect with
  | marked _ pending original => exact .kept pending original
  | appended operation fresh _ pending original => exact .appended operation fresh pending original
  | settled _ pending original => exact .filtered _ pending fun _ _ => by rw [original]
  | removed operations _ _ pending original =>
    refine .filtered _ pending fun operation member => ?_
    rw [pending] at member
    have kept : operation.operationId ∉ operations := of_decide_eq_true (List.mem_filter.mp member).2
    rw [original]
    exact lookup_foldl_erase kept
  | rebased rewrites => exact .rebased rewrites rfl

theorem step_moves (codec : Queue.EnvelopeCodec) (outbox : LocalOutbox) (call : OutboxCall) :
    Moves outbox.state (outbox.step codec call).state := (step_effect codec outbox call).moves

end Moves

/-! Every pending operation keeps an identity of its own, and is recorded as it is. -/

section Distinct
variable {codec} {state : LocalState}

section
variable (rewrite : Queue.RebaseRewrite) (id : OperationId) (operation : OperationEnvelope)

/-- The operation of the given identity with the base that the rewrite gives it. -/
def rebaseOne : OperationEnvelope :=
  if rewrite.operationId = id then { operation with baseVersion := rewrite.newBase } else operation

@[simp] theorem rebaseOne_operationId : (rebaseOne rewrite id operation).operationId = operation.operationId := by
  unfold rebaseOne
  split <;> rfl

end

/-- One rewrite carried out on the pending operations and on their originals. -/
def rebasedBy (state : LocalState) (rewrite : Queue.RebaseRewrite) : LocalState :=
  { state with
    pending := state.pending.map fun operation => rebaseOne rewrite operation.operationId operation
    original := state.original.map (rebaseOne rewrite) }

/-- Pending operations have identities of their own and are recorded as they are. -/
structure Recorded (state : LocalState) : Prop where
  unique : (state.pending.map OperationEnvelope.operationId).Nodup
  original : ∀ operation ∈ state.pending, state.original[operation.operationId]? = some operation

theorem Recorded.distinct (recorded : Recorded state) : state.Distinct where
  unique := recorded.unique
  original operation member := mem_iff_lookup.mpr ⟨operation, recorded.original operation member⟩

theorem Recorded.rebase (recorded : Recorded state) (rewrite : Queue.RebaseRewrite) :
    Recorded (rebasedBy state rewrite) where
  unique := by
    have ids : (rebasedBy state rewrite).pending.map OperationEnvelope.operationId =
        state.pending.map OperationEnvelope.operationId := by
      simp [rebasedBy, Function.comp_def]
    rw [ids]
    exact recorded.unique
  original operation member := by
    obtain ⟨before, listed, rfl⟩ := List.mem_map.mp member
    rw [rebaseOne_operationId, rebasedBy, getElem?_map, recorded.original before listed]
    rfl

theorem rebaseFirst_eq (unique : (pending.map OperationEnvelope.operationId).Nodup)
    (member : operation ∈ pending) (same : operation.operationId = rewrite.operationId) :
    rebaseFirst rewrite pending = some ({ operation with baseVersion := rewrite.newBase },
      pending.map fun other => rebaseOne rewrite other.operationId other) := by
  induction pending with
  | nil => cases member
  | cons first rest ih =>
    rw [List.map_cons, List.nodup_cons] at unique
    rw [rebaseFirst, List.map_cons]
    rcases List.mem_cons.mp member with rfl | later
    · have others : rest.map (fun other => rebaseOne rewrite other.operationId other) = rest := by
        refine (List.map_congr_left fun other listed => ?_).trans (List.map_id rest)
        exact if_neg fun named => unique.1 (same.trans named ▸ List.mem_map_of_mem listed)
      rw [if_pos same, others, rebaseOne, if_pos same.symm]
    · have different : first.operationId ≠ rewrite.operationId := by
        intro named
        exact unique.1 (named.trans same.symm ▸ List.mem_map_of_mem later)
      rw [if_neg different, ih unique.2 later, rebaseOne, if_neg (Ne.symm different)]
      rfl

theorem rebaseFirst_none (absent : ∀ operation ∈ pending, operation.operationId ≠ rewrite.operationId) :
    rebaseFirst rewrite pending = none := by
  induction pending with
  | nil => rfl
  | cons _ _ ih =>
    rw [List.forall_mem_cons] at absent
    rw [rebaseFirst, if_neg absent.1, ih absent.2]
    rfl

theorem applyRewrites_cons (recorded : Recorded state)
    (rest : List Queue.RebaseRewrite) (member : operation ∈ state.pending)
    (same : operation.operationId = rewrite.operationId) :
    applyRewrites (rewrite :: rest) state = applyRewrites rest (rebasedBy state rewrite) := by
  have original : state.original.insert rewrite.operationId { operation with baseVersion := rewrite.newBase } =
      state.original.map (rebaseOne rewrite) := by
    refine ext_getElem? fun id => ?_
    rw [lookup_insert, getElem?_map]
    unfold rebaseOne
    split
    · rename_i named
      rw [← named, ← same, recorded.original operation member]
      rfl
    · rw [Option.map_id']
  rw [applyRewrites, rebaseFirst_eq recorded.unique member same]
  simp only [original]
  rfl

theorem applyRewrites_keeps (holds : LocalState → Prop) (recorded : Recorded state) (initial : holds state)
    (kept : ∀ state rewrite, holds state → holds (rebasedBy state rewrite)) (rewrites : List Queue.RebaseRewrite) :
    holds (applyRewrites rewrites state).1 := by
  induction rewrites generalizing state with
  | nil => exact initial
  | cons rewrite rest ih =>
    by_cases present : ∃ operation ∈ state.pending, operation.operationId = rewrite.operationId
    · obtain ⟨operation, member, same⟩ := present
      rw [applyRewrites_cons recorded rest member same]
      exact ih (recorded.rebase rewrite) (kept state rewrite initial)
    · have absent : ∀ operation ∈ state.pending, operation.operationId ≠ rewrite.operationId :=
        fun operation member same => present ⟨operation, member, same⟩
      rw [applyRewrites, rebaseFirst_none absent]
      exact initial

theorem Recorded.rewritten (recorded : Recorded state) (rewrites : List Queue.RebaseRewrite) :
    Recorded (applyRewrites rewrites state).1 :=
  applyRewrites_keeps Recorded recorded recorded (fun _ rewrite held => held.rebase rewrite) rewrites

theorem Recorded.moves (recorded : Recorded state) (moves : Moves state after) : Recorded after := by
  cases moves with
  | kept pending original => exact ⟨pending ▸ recorded.unique, by rw [pending, original]; exact recorded.original⟩
  | appended operation fresh pending original =>
    have apart : ∀ waiting ∈ state.pending, operation.operationId ≠ waiting.operationId := by
      intro waiting member same
      exact fresh (same ▸ recorded.distinct.original waiting member)
    constructor
    · rw [pending, List.map_append, List.map_singleton, ← List.concat_eq_append]
      refine recorded.unique.concat fun found => ?_
      obtain ⟨waiting, member, same⟩ := List.mem_map.mp found
      exact apart waiting member same.symm
    · rw [pending, original, List.forall_mem_append, List.forall_mem_singleton]
      refine ⟨fun waiting member => ?_, ?_⟩
      · rw [lookup_insert, if_neg (apart waiting member)]
        exact recorded.original waiting member
      · rw [lookup_insert, if_pos rfl]
  | filtered _ pending original =>
    constructor
    · rw [pending]
      exact recorded.unique.sublist (List.filter_sublist.map _)
    · intro operation member
      rw [original operation member]
      rw [pending] at member
      exact recorded.original operation (List.mem_of_mem_filter member)
  | rebased rewrites applied => exact applied ▸ recorded.rewritten rewrites

theorem reached_recorded (codec : Queue.EnvelopeCodec) (calls : List OutboxCall) :
    Recorded (reached codec calls).state := by
  have throughout : Run.Throughout (step codec) (fun outbox => Recorded outbox.state) .default calls :=
    Run.Throughout.of_invariant ⟨List.nodup_nil, fun _ member => nomatch member⟩
      fun outbox call recorded => recorded.moves (step_moves codec outbox call)
  exact throughout.final

end Distinct

/-! What was sent is known for good. -/

section Sent
variable {codec} {outbox : LocalOutbox}

theorem marking_everSent (fence : Except StoreError Unit) (operations : List OperationId)
    (call : LocalState × Except StoreError Unit) :
    (underFence fence outbox (outbox.marking operations call)).1.everSent = outbox.everSent ∪
      (if (underFence fence outbox (outbox.marking operations call)).2 = .ok () then operations else []).toFinset := by
  obtain ⟨_, result⟩ := call
  cases fence with
  | error _ => simp [underFence]
  | ok _ => cases result <;> simp [underFence, marking]

theorem everSent_step (call : OutboxCall) :
    (outbox.step codec call).everSent = outbox.everSent ∪ (outbox.sends call).toFinset := by
  cases call with
  | markSending fence operations => exact marking_everSent fence operations _
  | markRetry fence operations _ => exact marking_everSent fence operations _
  | compact fence registry maxOperations =>
    simp only [sends, List.toFinset_nil, Finset.union_empty]
    refine underFence_keeps (fun next : LocalOutbox => next.everSent = outbox.everSent) rfl ?_
    unfold compactReferenceOutbox
    split <;> rfl
  | rebase _ _ _ _ =>
    simp only [sends, List.toFinset_nil, Finset.union_empty]
    refine underFence_keeps (fun next : LocalOutbox => next.everSent = outbox.everSent) rfl ?_
    unfold rebaseReferenceOutbox
    split <;> rfl
  | append _ | reconcile _ _ | stageSnapshot _ _ | installSubscription _ | applyScopeTransition _ _ =>
    exact (Finset.union_empty _).symm

/-- The store remembers exactly the given operations as sent. -/
def Remembers (outbox : LocalOutbox) (sent : List OperationId) : Prop := outbox.everSent = sent.toFinset

theorem reached_remembers (codec : Queue.EnvelopeCodec) (calls : List OutboxCall) :
    (reached codec calls).Remembers (sent codec calls) := by
  have initial : default.Remembers [] := rfl
  refine Run.invariant_with_trace initial ?_ calls [] (List.append_nil calls).symm
  intro _ _ _ _ known
  rw [Remembers, everSent_step, known, List.toFinset_append]

end Sent

/-! Compaction of the whole queue. -/

section Whole
variable {codec} {outbox : LocalOutbox}

theorem Removed.listed (removed : Removed outbox (outbox.applyPlan plan) operation) :
    operation ∈ plan.removeOperations := by
  obtain ⟨⟨waiting, pending, rfl⟩, gone⟩ := removed
  by_contra unlisted
  exact gone waiting (List.mem_filter.mpr ⟨pending, decide_eq_true unlisted⟩) rfl

section
variable (distinct : outbox.state.Distinct) (planned : outbox.planCompaction codec registry maxOperations = .ok plan)
include distinct planned

theorem mem_applyPlan_of_mem_drop (behind : waiting ∈ outbox.state.pending.drop maxOperations) :
    waiting ∈ (outbox.applyPlan plan).state.pending := by
  refine List.mem_filter.mpr ⟨List.mem_of_mem_drop behind, decide_eq_true fun listed => ?_⟩
  obtain ⟨-, ⟨_, inFront, same⟩, -⟩ := planCompaction_eq_ok planned _ listed
  have apart := distinct.unique
  rw [← List.take_append_drop maxOperations outbox.state.pending, List.map_append, List.nodup_append] at apart
  exact apart.2.2 _ (List.mem_map_of_mem inFront) _ (List.mem_map_of_mem behind) same

/-- The pending operations depend on nothing that was removed exactly if those behind the planned
ones do not. -/
theorem kept_iff : (∀ waiting ∈ (outbox.applyPlan plan).state.pending, ∀ needed ∈ dependenciesOf waiting,
      ¬Removed outbox (outbox.applyPlan plan) needed) ↔
    ∀ waiting ∈ outbox.state.pending.drop maxOperations, ∀ needed ∈ dependenciesOf waiting,
      ¬Removed outbox (outbox.applyPlan plan) needed := by
  constructor
  · intro kept waiting behind
    exact kept waiting (mem_applyPlan_of_mem_drop distinct planned behind)
  · intro kept waiting remaining needed asked removed
    have pending := (List.mem_filter.mp remaining).1
    rw [← List.take_append_drop maxOperations outbox.state.pending] at pending
    rcases List.mem_append.mp pending with inFront | behind
    · obtain ⟨-, -, unneeded⟩ := planCompaction_eq_ok planned needed removed.listed
      exact unneeded waiting inFront asked
    · exact kept waiting behind needed asked removed

end

end Whole

/-- An update of one and the same entity. -/
def exampleUpdate (id : BitVec 128) (dependencies : List OperationId) : OperationEnvelope where
  protocolVersion := 1
  operationId := ⟨id⟩
  tenantId := ⟨1⟩
  actorId := ⟨1⟩
  deviceId := ⟨1⟩
  entity := { entityType := 1, entityId := ⟨1⟩ }
  baseVersion := none
  createdAt := { physicalMs := 0, logical := 0, node := ⟨1⟩ }
  schemaVersion := 1
  operationKind := 1
  payload := []
  metadata :=
    { traceId := none, dependencies, lineage := { correlationId := ⟨1⟩, causedBy := none } }

def exampleCodec : Queue.EnvelopeCodec where
  toStdvec operation := some operation.payload
  blake3 _ := Vector.replicate 32 0

def exampleRegistry : Queue.OptimizationRegistry :=
  Queue.OptimizationRegistry.default.register 1
    { Queue.OperationOptimization.default with compaction := .replaceLatest, shape := .update }

/-- After an update that was sent, two more and one that depends on the given operation. -/
def exampleCalls (needed : OperationId) : List OutboxCall :=
  [.append (exampleUpdate 1 []), .markSending (.ok ()) [⟨1⟩], .append (exampleUpdate 2 []),
    .append (exampleUpdate 3 []), .append (exampleUpdate 4 [needed])]

/-- The first of the unsent updates is replaced by the second. -/
def examplePlan : Queue.CompactionPlan where
  operationsBefore := 3
  operationsAfter := 2
  removeOperations := [⟨2⟩]
  supersessions := [{ oldOperationId := ⟨2⟩, newOperationId := some ⟨3⟩, reason := .replacedByLatest }]
  bytesSaved := 0
  barriers := 1
  sensitivePreserved := 0

instance (before after : LocalOutbox) (operation : OperationId) : Decidable (Removed before after operation) :=
  inferInstanceAs (Decidable (_ ∧ _))

end LocalOutbox

end Aequora.Store
