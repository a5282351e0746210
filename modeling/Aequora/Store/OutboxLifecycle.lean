import Aequora.Store.OutboxRebase
import Aequora.Store.ReferenceRepetition

/-! The life of an operation in the outbox of the in-memory local store, over any sequence of calls.
-/

namespace Aequora.Store.LocalOutbox

open Std Aequora.Base Aequora.Protocol OutboxState List ExtTreeMap

variable (codec : Queue.EnvelopeCodec)

def appended (calls : List OutboxCall) : List OperationId := Run.trace (step codec) appends .default calls

/-- The two states know and hold the same operations, the same ones of them replayable. -/
structure Alike (before after : LocalState) : Prop where
  states : ∀ operation : OperationId, (after.outboxStates[operation]?).map isReplayable =
    (before.outboxStates[operation]?).map isReplayable
  pending : after.pending.map OperationEnvelope.operationId = before.pending.map OperationEnvelope.operationId
  original : ∀ operation, operation ∈ after.original ↔ operation ∈ before.original

theorem Alike.refl (state : LocalState) : Alike state state := ⟨fun _ => rfl, rfl, fun _ => Iff.rfl⟩

theorem Alike.trans (earlier : Alike first second) (later : Alike second third) :
    Alike first third where
  states operation := (later.states operation).trans (earlier.states operation)
  pending := later.pending.trans earlier.pending
  original operation := (later.original operation).trans (earlier.original operation)

/-- What a call may do to the operations and their states, given the operations it reports on and
those it appends. -/
inductive Restates (reported : List OperationId) (before after : LocalState) : List OperationId → Prop where
  | alike (same : Alike before after) : Restates reported before after []
  | appended (operation : OperationEnvelope) (fresh : operation.operationId ∉ before.original)
      (states : after.outboxStates = before.outboxStates.insert operation.operationId .pending)
      (pending : after.pending = before.pending ++ [operation])
      (original : after.original = before.original.insert operation.operationId operation) :
      Restates reported before after [operation.operationId]
  | settled
      (states : ∀ operation, if operation ∈ reported then after.Settled operation
        else after.outboxStates[operation]? = before.outboxStates[operation]?)
      (pending : after.pending =
        before.pending.filter fun operation => decide (operation.operationId ∉ reported))
      (original : after.original = before.original) : Restates reported before after []
  | removed (operations : List OperationId)
      (waiting : ∀ operation ∈ operations, ∃ entry ∈ before.pending, entry.operationId = operation)
      (states : after.outboxStates = operations.foldl erase before.outboxStates)
      (pending : after.pending = before.pending.filter fun operation => decide (operation.operationId ∉ operations))
      (original : after.original = operations.foldl erase before.original) : Restates reported before after []

variable {codec} {outbox : LocalOutbox} {state after : LocalState}

theorem rebasedBy_alike (state : LocalState) (rewrite : Queue.RebaseRewrite) :
    Alike state (rebasedBy state rewrite) where
  states _ := rfl
  pending := by simp [rebasedBy, Function.comp_def]
  original operation := mem_map

theorem applyRewrites_alike (recorded : Recorded state) (rewrites : List Queue.RebaseRewrite) :
    Alike state (applyRewrites rewrites state).1 :=
  applyRewrites_keeps (Alike state) recorded (.refl state)
    (fun middle rewrite alike => alike.trans (rebasedBy_alike middle rewrite)) rewrites

theorem Effect.restates (recorded : Recorded state)
    (effect : Effect reported state added after) : Restates reported state after added := by
  cases effect with
  | marked states pending original => exact .alike ⟨states, by rw [pending], by simp [original]⟩
  | appended operation fresh states pending original => exact .appended operation fresh states pending original
  | settled states pending original => exact .settled states pending original
  | removed operations waiting states pending original => exact .removed operations waiting states pending original
  | rebased rewrites => exact .alike (applyRewrites_alike recorded rewrites)

theorem step_restates (codec : Queue.EnvelopeCodec) (recorded : Recorded outbox.state) (call : OutboxCall) :
    Restates (reports call) outbox.state (outbox.step codec call).state (outbox.appends call) :=
  (step_effect codec outbox call).restates recorded

/-! What waits is replayable, so what is settled does not wait. -/

/-- Every pending operation may be sent. -/
def Live (state : LocalState) : Prop :=
  ∀ operation ∈ state.pending, (state.outboxStates[operation.operationId]?).any isReplayable = true

theorem not_settled_of_replayable (replayable : (state.outboxStates[operation]?).any isReplayable = true) :
    ¬state.Settled operation := by
  unfold LocalState.Settled
  cases found : state.outboxStates[operation]? with
  | none => simp
  | some _ =>
    rw [found] at replayable
    rw [Option.any_some, isTerminal_eq]
    simpa using replayable

theorem Live.not_settled (live : Live state) (member : waiting ∈ state.pending) :
    ¬state.Settled waiting.operationId := not_settled_of_replayable (live waiting member)

theorem Live.restates (live : Live state) (recorded : Recorded state)
    (restates : Restates reported state after added) : Live after := by
  intro waiting member
  cases restates with
  | alike same =>
    have listed : waiting.operationId ∈ state.pending.map OperationEnvelope.operationId :=
      same.pending ▸ mem_map_of_mem member
    obtain ⟨earlier, present, named⟩ := mem_map.mp listed
    have replayable := congrArg (Option.any id) (same.states waiting.operationId)
    simp only [Option.any_map, id_eq] at replayable
    exact replayable.trans (named ▸ live earlier present)
  | appended operation fresh states pending original =>
    rw [states, lookup_insert]
    rw [pending] at member
    rcases mem_append.mp member with earlier | last
    · have different : operation.operationId ≠ waiting.operationId := by
        intro same
        exact fresh (same ▸ recorded.distinct.original waiting earlier)
      rw [if_neg different]
      exact live waiting earlier
    · rw [mem_singleton.mp last, if_pos rfl]
      rfl
  | settled states pending original =>
    rw [pending] at member
    obtain ⟨earlier, unlisted⟩ := mem_filter.mp member
    have kept := states waiting.operationId
    rw [if_neg (of_decide_eq_true unlisted)] at kept
    rw [kept]
    exact live waiting earlier
  | removed _ _ states pending _ =>
    rw [pending] at member
    obtain ⟨earlier, unlisted⟩ := mem_filter.mp member
    rw [states, lookup_foldl_erase (of_decide_eq_true unlisted)]
    exact live waiting earlier

theorem settled_restates (live : Live state)
    (restates : Restates reported state after added) (settled : state.Settled operation) (once : operation ∉ added) :
    after.Settled operation := by
  cases restates with
  | alike same => exact (LocalState.settled_congr (same.states operation)).mpr settled
  | appended other _ states pending original =>
    have different : other.operationId ≠ operation := by
      rintro rfl
      exact once (mem_singleton_self _)
    rw [LocalState.Settled, states, lookup_insert, if_neg different]
    exact settled
  | settled states pending original =>
    have kept := states operation
    split at kept
    · exact kept
    · rw [LocalState.Settled, kept]
      exact settled
  | removed operations listed states _ _ =>
    have unlisted : operation ∉ operations := by
      intro member
      obtain ⟨_, present, rfl⟩ := listed operation member
      exact live.not_settled present settled
    rw [LocalState.Settled, states, lookup_foldl_erase unlisted]
    exact settled

section
variable (codec : Queue.EnvelopeCodec)

theorem reached_live (calls : List OutboxCall) : Live (reached codec calls).state := by
  have throughout : Run.Throughout (step codec) (fun outbox => Recorded outbox.state ∧ Live outbox.state)
      .default calls := by
    refine Run.Throughout.of_invariant ⟨reached_recorded codec [], fun _ member => nomatch member⟩ ?_
    intro outbox call ⟨recorded, live⟩
    exact ⟨recorded.moves (step_moves codec outbox call), live.restates recorded (step_restates codec recorded call)⟩
  exact throughout.final.2

theorem reached_snoc (calls : List OutboxCall) (call : OutboxCall) :
    reached codec (calls ++ [call]) = (reached codec calls).step codec call :=
  Run.final_append (step codec) .default calls [call]

theorem appended_append (first second : List OutboxCall)
    (member : operation ∈ appended codec first) : operation ∈ appended codec (first ++ second) := by
  rw [appended, Run.trace_append]
  exact mem_append_left _ member

end

/-! The three promises of the outbox. -/

section
variable (codec : Queue.EnvelopeCodec) (calls : List OutboxCall)

/-- What was appended and has its final result keeps a final result and is not handed out again. -/
def StaysSettled : Prop :=
  ∀ before middle after, calls = before ++ middle ++ after →
    ∀ operation ∈ appended codec before, (reached codec before).state.Settled operation →
      (reached codec (before ++ middle)).state.Settled operation ∧
        ∀ now limit, ∀ handedOut ∈ (reached codec (before ++ middle)).state.pendingOperations now limit,
          handedOut.operationId ≠ operation

/-- No append takes up the identity of an operation that was appended before, is no longer recorded,
and has a final result. -/
def NoReuse : Prop :=
  ∀ before operation after, calls = before ++ .append operation :: after →
    operation.operationId ∈ appended codec before → (reached codec before).state.Settled operation.operationId →
      operation.operationId ∈ (reached codec before).state.original

end

theorem not_handedOut (live : Live state) (settled : state.Settled operation) (member : handedOut ∈ state.pendingOperations now limit) :
    handedOut.operationId ≠ operation := by
  rintro rfl
  have pending : handedOut ∈ state.pending := mem_of_mem_filter (mem_of_mem_take member)
  exact live.not_settled pending settled

theorem settled_of_noReuse {calls before middle after : List OutboxCall} (fresh : NoReuse codec calls)
    (split : calls = before ++ middle ++ after)
    (appendedBefore : operation ∈ appended codec before)
    (settled : (reached codec before).state.Settled operation) :
    (reached codec (before ++ middle)).state.Settled operation := by
  induction middle using reverseRecOn generalizing after with
  | nil => rwa [append_nil]
  | append_singleton middle call ih =>
    have joined : calls = before ++ middle ++ call :: after := by simp [split]
    have still := ih joined
    rw [← append_assoc, reached_snoc]
    refine settled_restates (reached_live codec _) (step_restates codec (reached_recorded codec _) call) still ?_
    intro again
    cases call with
    | append reused =>
      simp only [appends] at again
      split at again
      · cases again
      · rename_i unknown
        cases mem_singleton.mp again
        exact unknown (fresh (before ++ middle) reused after joined
          (appended_append codec before middle appendedBefore) still)
    | _ => cases again

section
variable (codec : Queue.EnvelopeCodec) (calls : List OutboxCall)

theorem staysSettled_iff :
    StaysSettled codec calls ↔ NoReuse codec calls := by
  constructor
  · intro stays before operation after split appendedBefore settled
    by_contra unknown
    have kept := (stays before [.append operation] after (by simp [split]) _ appendedBefore settled).1
    rw [reached_snoc, step, LocalState.appendOperation, if_neg unknown] at kept
    refine not_settled_of_replayable ?_ kept
    rw [lookup_insert, if_pos rfl]
    rfl
  · intro fresh _ _ _ split _ appendedBefore settled
    have still := settled_of_noReuse fresh split appendedBefore settled
    exact ⟨still, fun now limit handedOut member => not_handedOut (reached_live codec _) still member⟩

def Replans : OutboxCall → Prop
  | .compact _ _ _ | .rebase _ _ _ _ => True
  | _ => False

structure Holding where
  pending : List OperationEnvelope
  original : Option OperationEnvelope
  state : Option OutboxState
  retry : Option RetryMetadata

def holding (outbox : LocalOutbox) (operation : OperationId) : Holding where
  pending := outbox.state.pending.filter fun waiting => waiting.operationId = operation
  original := outbox.state.original[operation]?
  state := outbox.state.outboxStates[operation]?
  retry := outbox.state.retryMetadata[operation]?

/-- Compaction and rebase leave alone what was ever marked for sending or for a retry. -/
def KeepsSent : Prop :=
  ∀ before call after, calls = before ++ call :: after → Replans call →
    ∀ operation ∈ sent codec before,
      (reached codec (before ++ [call])).holding operation = (reached codec before).holding operation

end

theorem applyPlan_holding
    (kept : operation ∉ plan.removeOperations) : (outbox.applyPlan plan).holding operation = outbox.holding operation := by
  have pending : (outbox.state.pending.filter fun waiting => decide (waiting.operationId ∉ plan.removeOperations)).filter
      (fun waiting => waiting.operationId = operation) =
        outbox.state.pending.filter fun waiting => waiting.operationId = operation := by
    rw [filter_filter]
    apply filter_congr
    intro _ _
    rw [Bool.and_eq_left_iff_imp, decide_eq_true_eq, decide_eq_true_eq]
    rintro rfl
    exact kept
  simp only [holding, applyPlan, pending, lookup_foldl_erase kept]

theorem rebaseAll_holding (unlisted : ∀ rewrite ∈ rewrites, rewrite.operationId ≠ operation) :
    holding { outbox with state := { outbox.state with
        pending := outbox.state.pending.map fun waiting => rebaseAll rewrites waiting.operationId waiting
        original := outbox.state.original.map (rebaseAll rewrites) } } operation = outbox.holding operation := by
  have pending : (outbox.state.pending.map fun waiting => rebaseAll rewrites waiting.operationId waiting).filter
      (fun waiting => waiting.operationId = operation) =
        outbox.state.pending.filter fun waiting => waiting.operationId = operation := by
    induction outbox.state.pending with
    | nil => rfl
    | cons first _ ih =>
      rw [map_cons, filter_cons, filter_cons, ih]
      obtain ⟨_, framed⟩ := rebaseAll_frame rewrites first.operationId first
      by_cases mine : first.operationId = operation
      · have same : rebaseAll rewrites first.operationId first = first :=
          rebaseAll_unlisted first fun rewrite listed => mine ▸ unlisted rewrite listed
        rw [same]
      · simp [framed, mine]
  have original : (outbox.state.original.map (rebaseAll rewrites))[operation]? = outbox.state.original[operation]? := by
    rw [ExtTreeMap.getElem?_map]
    cases outbox.state.original[operation]? with
    | none => rfl
    | some envelope => rw [Option.map_some, rebaseAll_unlisted envelope unlisted]
  simp only [holding, pending, original]

theorem step_holding (recorded : Recorded outbox.state) (replans : Replans call)
    (known : operation ∈ outbox.everSent) :
    (outbox.step codec call).holding operation = outbox.holding operation := by
  cases call with
  | compact fence registry maxOperations =>
    refine underFence_keeps (fun next : LocalOutbox => next.holding operation = outbox.holding operation) rfl ?_
    unfold compactReferenceOutbox
    cases planned : outbox.planCompaction codec registry maxOperations with
    | error error => rfl
    | ok plan => exact applyPlan_holding fun listed => (planCompaction_eq_ok planned operation listed).1 known
  | rebase _ _ _ _ =>
    refine underFence_keeps (fun next : LocalOutbox => next.holding operation = outbox.holding operation) rfl ?_
    rcases rebaseReferenceOutbox_cases recorded with ⟨_, _, refused⟩ | ⟨_, planned, carried⟩
    · rw [refused]
    · rw [carried, rewritten_of_plan recorded planned]
      refine rebaseAll_holding fun rewrite listed same => ?_
      obtain ⟨_, _, _, named, _, rebasable, _⟩ := rewrite_of_plan planned listed
      exact rebasable.unsent (named.trans same ▸ known)
  | _ => cases replans

section
variable (codec : Queue.EnvelopeCodec) (calls : List OutboxCall)

theorem keepsSent : KeepsSent codec calls := by
  intro before _ _ _ replans _ member
  rw [reached_snoc]
  refine step_holding (reached_recorded codec before) replans ?_
  rw [reached_remembers codec before, mem_toFinset]
  exact member

/-- A mark that fails changes nothing. -/
def FailedMarksInert : Prop :=
  ∀ before after fence operations,
    (∀ error, calls = before ++ .markSending fence operations :: after →
      ((reached codec before).markSendingFenced fence operations).2 = .error error →
        reached codec (before ++ [.markSending fence operations]) = reached codec before) ∧
    ∀ nextAttempt error, calls = before ++ .markRetry fence operations nextAttempt :: after →
      ((reached codec before).markRetryFenced fence operations nextAttempt).2 = .error error →
        reached codec (before ++ [.markRetry fence operations nextAttempt]) = reached codec before

end

theorem marking_failed (attempt : Except StoreError LocalState) (failed : (underFence fence outbox
      (outbox.marking operations (commitOrRollback outbox.state attempt))).2 = .error error) :
    (underFence fence outbox (outbox.marking operations (commitOrRollback outbox.state attempt))).1 = outbox := by
  cases fence with
  | error refused => rfl
  | ok _ =>
    cases attempt with
    | error _ => rfl
    | ok _ => cases failed

theorem failedMarksInert (codec : Queue.EnvelopeCodec) (calls : List OutboxCall) : FailedMarksInert codec calls := by
  intro _ _ _ _
  refine ⟨fun error _ failed => ?_, fun nextAttempt error _ failed => ?_⟩
  · rw [reached_snoc]
    exact marking_failed _ failed
  · rw [reached_snoc]
    exact marking_failed _ failed

/-! An authority that reports only on what the outbox records. -/

/-- Every operation with a state is recorded. -/
def Tracked (state : LocalState) : Prop := ∀ operation ∈ state.outboxStates, operation ∈ state.original

theorem Tracked.restates (tracked : Tracked state) (restates : Restates reported state after added)
    (recorded : ∀ operation ∈ reported, operation ∈ state.original) : Tracked after := by
  intro operation known
  rw [mem_iff_isSome_getElem?] at known
  cases restates with
  | alike same =>
    have present := congrArg Option.isSome (same.states operation)
    rw [Option.isSome_map, Option.isSome_map, known] at present
    exact (same.original operation).mpr (tracked operation (mem_iff_isSome_getElem?.mpr present.symm))
  | appended _ _ states pending original =>
    rw [states, lookup_insert] at known
    rw [original, mem_insert]
    split at known
    · rename_i same
      exact .inl (same ▸ ReflOrd.compare_self)
    · exact .inr (tracked operation (mem_iff_isSome_getElem?.mpr known))
  | settled states pending original =>
    rw [original]
    have kept := states operation
    split at kept
    · rename_i listed
      exact recorded operation listed
    · rw [kept] at known
      exact tracked operation (mem_iff_isSome_getElem?.mpr known)
  | removed _ _ states _ original =>
    rw [states, lookup_foldl_erase_eq] at known
    split at known
    · cases known
    · rename_i unlisted
      rw [original, mem_iff_isSome_getElem?, lookup_foldl_erase unlisted,
        ← mem_iff_isSome_getElem?]
      exact tracked operation (mem_iff_isSome_getElem?.mpr known)

theorem noReuse_of_recorded_reports (recorded : ∀ before call after, calls = before ++ call :: after →
      ∀ operation ∈ reports call, operation ∈ (reached codec before).state.original) : NoReuse codec calls := by
  have tracked : ∀ before after, calls = before ++ after → Tracked (reached codec before).state := by
    intro before
    induction before using reverseRecOn with
    | nil =>
      intro _ _ operation impossible
      exact absurd impossible not_mem_empty
    | append_singleton before call ih =>
      intro after split
      have joined : calls = before ++ call :: after := by simp [split]
      rw [reached_snoc]
      exact (ih _ joined).restates (step_restates codec (reached_recorded codec before) call)
        (recorded before call after joined)
  intro before operation _ split _ settled
  refine tracked before _ split operation.operationId ?_
  rw [mem_iff_isSome_getElem?]
  unfold LocalState.Settled at settled
  cases found : (reached codec before).state.outboxStates[operation.operationId]? with
  | none =>
    rw [found] at settled
    cases settled
  | some _ => rfl

/-- Over any sequence of calls, what was sent is left alone by compaction and rebase, and a failed
mark changes nothing. What was appended and has its final result keeps it exactly as long as no
append takes up the identity of an operation that is no longer recorded. -/
theorem outbox_lifecycle_iff (codec : Queue.EnvelopeCodec) (calls : List OutboxCall) :
    (StaysSettled codec calls ∧ KeepsSent codec calls ∧ FailedMarksInert codec calls) ↔ NoReuse codec calls := by
  rw [staysSettled_iff]
  constructor
  · intro ⟨fresh, _, _⟩
    exact fresh
  · intro fresh
    exact ⟨fresh, keepsSent codec calls, failedMarksInert codec calls⟩

/-- A response with one acknowledgement. -/
def exampleAcknowledgement (operation : OperationId) : SyncResponse :=
  { exampleSettlement [] with
    acknowledged := [{ operationId := operation, eventId := ⟨1⟩
                       lineage := { correlationId := ⟨1⟩, causedBy := none }
                       entityVersion := 1, sequence := 3, duplicate := false }] }

def exampleForgotten : List OutboxCall :=
  [.append (exampleUpdate 1 []), .append (exampleUpdate 2 []), .compact (.ok ()) exampleRegistry 2,
    .reconcile (.ok ()) (exampleAcknowledgement ⟨1⟩)]

/-- The acknowledged update can be appended again, and is then handed out. -/
theorem acknowledged_operation_returns : ⟨1⟩ ∈ appended exampleCodec exampleForgotten ∧
      (reached exampleCodec exampleForgotten).state.outboxStates[(⟨1⟩ : OperationId)]? = some .acknowledged ∧
      (reached exampleCodec (exampleForgotten ++ [.append (exampleUpdate 1 [])])).state.outboxStates[(⟨1⟩ :
        OperationId)]? = some .pending ∧
      exampleUpdate 1 [] ∈ (reached exampleCodec
        (exampleForgotten ++ [.append (exampleUpdate 1 [])])).state.pendingOperations 0 10 := by
  decide +kernel

end Aequora.Store.LocalOutbox
