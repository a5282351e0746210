import Aequora.Base.BreadthFirst
import Aequora.SyncModel.Checks

/-! The exhaustive search over the executable model, and the failure traces it leaves behind
for replay. -/

namespace Aequora.SyncModel

open Std Aequora.Base Aequora.Base.BreadthFirst Model Search

inductive ModelError where
  | action (source : ActionError)
  | invariant (violation : InvariantViolation)

abbrev RonError := String

abbrev StateHash := Vector UInt8 32

def modelVersion : Nat := 4
def aequoraVersion : String := "0.1.1"

structure SearchBounds where
  maxDepth : Nat := 8
  maxRequests : Nat := 3
  maxStates : Nat := 25000

structure SearchReport where
  (visitedStates exploredTransitions maximumDepth : Nat)
deriving DecidableEq

/-- Replayable failure artifact. -/
structure FailureTrace where
  modelVersion : Nat
  aequoraVersion : String
  invariant : InvariantId
  initialStateHash : StateHash
  initialState : Model
  actions : List ModelAction
  detail : String
deriving DecidableEq

inductive ReplayError where
  | unsupportedModelVersion (version : Nat)
  | initialStateHashMismatch
  | serialize (error : RonError)
  | action (index : Nat) (source : ActionError)
  | earlyViolation (index : Nat)
  | invariantMismatch (expected actual : InvariantId)
  | noViolation

inductive ExploreError where
  | invariant (trace : FailureTrace)
  | serialize (error : RonError)
deriving DecidableEq

/-- The actions of one client the bounds allow. -/
def Model.clientActions (model : Model) (bounds : SearchBounds) (clientId : ClientId) (client : ClientModel) :
    List ModelAction :=
  if client.crashed then [.restartClient clientId]
  else
    .crashClient clientId ::
      if client.online ∧ model.network.connected then
        (if ¬client.outbox.isEmpty ∧ model.network.requests.length < bounds.maxRequests then
          [.sendOperation clientId] else []) ++
        (if model.network.requests.length < bounds.maxRequests then [.pull clientId] else [])
      else []

/-- Enabled actions under the supplied exploration bounds. -/
def Model.enabledActions (model : Model) (bounds : SearchBounds) : List ModelAction :=
  (model.clients.toList.flatMap fun entry => model.clientActions bounds entry.1 entry.2) ++
  (if model.network.connected ∧ ¬model.server.crashed then
    (List.range model.network.requests.length).map .deliverRequest else []) ++
  (if model.network.connected then
    (List.range model.network.responses.length).map .deliverResponse else []) ++
  (if model.network.requests.length < bounds.maxRequests then
    (List.range model.network.requests.length).map .duplicateRequest else []) ++
  (List.range model.network.responses.length).map .dropResponse ++
  [if model.server.crashed then .restartServer else .crashServer] ++
  [if model.network.connected then .disconnectNetwork else .reconnectNetwork]

section Hashed
variable (blake3 : List UInt8 → Vector UInt8 32) (ron : Model → Except RonError (List UInt8))

/-- One action followed by every invariant check. The state a failing action leaves is not
used by any caller. -/
def Model.apply (model : Model) (action : ModelAction) : Except ModelError Model :=
  match model.applyUnchecked blake3 action with
  | (_, .error source) => .error (.action source)
  | (next, .ok ()) =>
    match next.checkInvariants with
    | .error violation => .error (.invariant violation)
    | .ok () => .ok next

def Model.deterministicHash (model : Model) : Except RonError StateHash :=
  (ron model).map blake3

def FailureTrace.capture (initial : Model) (actions : List ModelAction) (violation : InvariantViolation) :
    Except ExploreError FailureTrace :=
  match initial.deterministicHash blake3 ron with
  | .error error => .error (.serialize error)
  | .ok initialStateHash =>
    .ok { modelVersion := SyncModel.modelVersion, aequoraVersion := SyncModel.aequoraVersion
          invariant := violation.invariant, initialStateHash, initialState := initial, actions
          detail := violation.detail }

/-- The replay loop, at the action with this index. -/
def FailureTrace.replayFrom (trace : FailureTrace) (index : Nat) (model : Model) :
    List ModelAction → Except ReplayError InvariantViolation
  | [] => .error .noViolation
  | action :: rest =>
    match model.apply blake3 action with
    | .ok next => trace.replayFrom (index + 1) next rest
    | .error (.action source) => .error (.action index source)
    | .error (.invariant actual) =>
      if index + 1 ≠ trace.actions.length then .error (.earlyViolation index)
      else if actual.invariant ≠ trace.invariant then
        .error (.invariantMismatch trace.invariant actual.invariant)
      else .ok actual

/-- Replays the complete trace and returns the reproduced invariant violation. -/
def FailureTrace.replay (trace : FailureTrace) : Except ReplayError InvariantViolation :=
  if trace.modelVersion ≠ SyncModel.modelVersion then
    .error (.unsupportedModelVersion trace.modelVersion)
  else
    match trace.initialState.deterministicHash blake3 ron with
    | .error error => .error (.serialize error)
    | .ok actualHash =>
      if actualHash ≠ trace.initialStateHash then .error .initialStateHashMismatch
      else trace.replayFrom blake3 0 trace.initialState trace.actions

/-- How the search takes the result of an action: actions that fail their preconditions are
passed over. -/
def Model.applied (model : Model) (action : ModelAction) : Applied Model InvariantViolation :=
  match model.apply blake3 action with
  | .ok next => .reached next
  | .error (.action _) => .refused
  | .error (.invariant violation) => .violated violation

/-- The model as a breadth-first search sees it. -/
def SearchBounds.space (bounds : SearchBounds) :
    Space Model ModelAction StateHash InvariantViolation RonError where
  enabled model := model.enabledActions bounds
  apply := applied blake3
  key := deterministicHash blake3 ron
  maxDepth := bounds.maxDepth
  maxStates := bounds.maxStates

/-- What `explore` returns once its loop has ended. -/
def exploreResult (initial : Model) :
    Except (Stop ModelAction InvariantViolation RonError) (Search Model ModelAction StateHash) →
      Except ExploreError SearchReport
  | .ok search =>
    .ok { visitedStates := search.visited.card, exploredTransitions := search.transitions
          maximumDepth := search.depth }
  | .error (.faulted error) => .error (.serialize error)
  | .error (.violated actions violation) =>
    match FailureTrace.capture blake3 ron initial actions violation with
    | .error error => .error error
    | .ok trace => .error (.invariant trace)

def explore (initial : Model) (bounds : SearchBounds) : Except ExploreError SearchReport :=
  exploreResult blake3 ron initial ((start initial).run (bounds.space blake3 ron))

variable {blake3 ron} {model initial : Model} {bounds : SearchBounds} {trace : FailureTrace}

theorem Model.apply_checked (applies : model.apply blake3 action = .ok next) : next.checkInvariants = .ok () := by
  unfold apply at applies
  split at applies
  · cases applies
  · split at applies
    · cases applies
    · next checked =>
      cases applies
      exact checked

theorem Model.applied_reached : model.applied blake3 action = .reached next ↔ model.apply blake3 action = .ok next := by
  unfold applied
  cases model.apply blake3 action with
  | ok _ => simp
  | error failure => cases failure <;> simp

theorem Model.applied_violated : model.applied blake3 action = .violated violation ↔
      model.apply blake3 action = .error (.invariant violation) := by
  unfold applied
  cases model.apply blake3 action with
  | ok _ => simp
  | error failure => cases failure <;> simp

theorem FailureTrace.replayFrom_reach
    (reach : Reach (bounds.space blake3 ron) initial path model) (rest : List ModelAction) :
    trace.replayFrom blake3 0 initial (path ++ rest) = trace.replayFrom blake3 path.length model rest := by
  induction reach generalizing rest with
  | here => rfl
  | step _ _ applies ih =>
    have accepted := applied_reached.mp applies
    rw [List.append_assoc, List.singleton_append, ih, replayFrom, accepted, List.length_append,
      List.length_singleton]

theorem FailureTrace.capture_error {actions : List ModelAction}
    (captured : FailureTrace.capture blake3 ron initial actions violation = .error error) :
    ∃ source, error = .serialize source := by
  unfold FailureTrace.capture at captured
  split at captured
  · next source _ =>
    cases captured
    exact ⟨source, rfl⟩
  · cases captured

theorem FailureTrace.replay_captured {actions : List ModelAction}
    (captured : FailureTrace.capture blake3 ron initial actions violation = .ok trace)
    (violates : Violates (bounds.space blake3 ron) initial actions violation) :
    trace.actions = actions ∧ trace.replay blake3 ron = .ok violation ∧ violation.invariant = trace.invariant := by
  obtain ⟨_, _, _, rfl, reach, -, applies⟩ := violates
  have violated := applied_violated.mp applies
  unfold FailureTrace.capture at captured
  cases hashed : initial.deterministicHash blake3 ron with
  | error _ =>
    rw [hashed] at captured
    cases captured
  | ok _ =>
    rw [hashed] at captured
    cases captured
    simp only [FailureTrace.replay, ne_eq, not_true_eq_false, ↓reduceIte, hashed]
    rw [FailureTrace.replayFrom_reach reach, FailureTrace.replayFrom, violated]
    simp

theorem explore_ok (explores : explore blake3 ron initial bounds = .ok report) :
    ∃ search, (start initial).run (bounds.space blake3 ron) = .ok search ∧
      report.visitedStates = search.visited.card := by
  unfold explore at explores
  cases runs : (start initial).run (bounds.space blake3 ron) with
  | ok search =>
    rw [runs] at explores
    cases explores
    exact ⟨search, rfl, rfl⟩
  | error stop =>
    rw [runs] at explores
    cases stop with
    | faulted _ => cases explores
    | violated _ _ =>
      simp only [exploreResult] at explores
      split at explores <;> cases explores

theorem explore_invariant (explores : explore blake3 ron initial bounds = .error (.invariant trace)) :
    ∃ actions violation,
      (start initial).run (bounds.space blake3 ron) = .error (.violated actions violation) ∧
      FailureTrace.capture blake3 ron initial actions violation = .ok trace := by
  unfold explore at explores
  cases runs : (start initial).run (bounds.space blake3 ron) with
  | ok _ =>
    rw [runs] at explores
    cases explores
  | error stop =>
    rw [runs] at explores
    cases stop with
    | faulted error => cases explores
    | violated actions violation =>
      refine ⟨actions, violation, rfl, ?_⟩
      simp only [exploreResult] at explores
      cases captured : FailureTrace.capture blake3 ron initial actions violation with
      | error _ =>
        rw [captured] at explores
        obtain ⟨_, rfl⟩ := FailureTrace.capture_error captured
        cases explores
      | ok _ =>
        rw [captured] at explores
        cases explores
        rfl

/-- A search that ends below its bound on states has visited every state the depth allows,
each of them safe and none of them one action away from a violation within the depth. A
violation it reports has a shortest trace, which replay reproduces. All that is asked of the
hash is that it tells the states within the depth apart. -/
theorem explore_exact (separates : Separates (bounds.space blake3 ron) initial) :
    (∀ report, explore blake3 ron initial bounds = .ok report → report.visitedStates < bounds.maxStates →
      ∃ search, (start initial).run (bounds.space blake3 ron) = .ok search ∧
        report.visitedStates = search.visited.card ∧
        (∀ actions state, Reach (bounds.space blake3 ron) initial actions state →
          actions.length ≤ bounds.maxDepth →
            (actions ≠ [] → state.checkInvariants = .ok ()) ∧ Known (bounds.space blake3 ron) search state) ∧
        ∀ actions violation, Violates (bounds.space blake3 ron) initial actions violation →
          bounds.maxDepth < actions.length) ∧
    ∀ trace, explore blake3 ron initial bounds = .error (.invariant trace) →
      (∃ violation, Violates (bounds.space blake3 ron) initial trace.actions violation ∧
        trace.replay blake3 ron = .ok violation ∧ violation.invariant = trace.invariant) ∧
      ∀ actions violation, Violates (bounds.space blake3 ron) initial actions violation →
        trace.actions.length ≤ actions.length := by
  constructor
  · intro _ explores room
    obtain ⟨search, runs, counted⟩ := explore_ok explores
    have below : search.visited.card < bounds.maxStates := counted ▸ room
    refine ⟨search, runs, counted, fun actions state reach short => ⟨fun moved => ?_, ?_⟩, ?_⟩
    · cases reach with
      | here => exact absurd rfl moved
      | step before enabled applies => exact apply_checked (applied_reached.mp applies)
    · exact (run_complete separates runs below reach short).1
    · rintro _ violation ⟨before, _, action, rfl, reach, enabled, applies⟩
      rw [List.length_append, List.length_singleton]
      by_contra within
      have short : before.length < bounds.maxDepth := by omega
      exact (run_complete separates runs below reach short.le).2 short action enabled violation applies
  · intro _ explores
    obtain ⟨_, violation, runs, captured⟩ := explore_invariant explores
    obtain ⟨violates, nearest⟩ := run_nearest separates runs
    obtain ⟨rfl, replays, same⟩ := FailureTrace.replay_captured captured violates
    exact ⟨⟨violation, violates, replays, same⟩, nearest⟩

/-- The reported number of visited states keeps to its bound exactly when no state that waits
at the moment the bound is met is new: the loop goes on visiting what the queue still holds. -/
theorem explore_visited_le_iff (explores : explore blake3 ron initial bounds = .ok report) :
    report.visitedStates ≤ bounds.maxStates ↔
      ∀ search, Passes (bounds.space blake3 ron) (start initial) search →
        search.visited.card = bounds.maxStates →
          ∀ waiter ∈ search.pending, Known (bounds.space blake3 ron) search waiter.1 := by
  obtain ⟨_, runs, counted⟩ := explore_ok explores
  rw [counted]
  exact run_card_le_iff runs

theorem explore_of_runFor (rounds : Nat) (runs : ((start initial).runFor (bounds.space blake3 ron) rounds).map
      (exploreResult blake3 ron initial) = some result) : explore blake3 ron initial bounds = result := by
  obtain ⟨_, ends, rfl⟩ := Option.map_eq_some_iff.mp runs
  rw [explore, run_of_runFor ends]

end Hashed

def sampleBlake3 (bytes : List UInt8) : Vector UInt8 32 := Vector.ofFn fun index => bytes.getD index 0

def sampleRon (model : Model) : Except RonError (List UInt8) :=
  .ok [if model.server.crashed then 1 else 0, if model.network.connected then 1 else 0]

def sampleBounds : SearchBounds := { maxDepth := 1 }

def sampleBroken : Model :=
  { Model.new 0 with
    server := { appliedOperations := (∅ : ExtTreeMap ModelOperationId ModelOutcome).insert ⟨1⟩ (.conflict none) } }

def sampleStates (initial : Model) : List Model :=
  initial :: (initial.enabledActions sampleBounds).filterMap fun action => (initial.apply sampleBlake3 action).toOption

theorem mem_sampleStates
    (inside : Within (sampleBounds.space sampleBlake3 sampleRon) initial state) : state ∈ sampleStates initial := by
  obtain ⟨path, short, reach⟩ := inside
  cases reach with
  | here => exact List.mem_cons_self
  | step before enabled applies =>
    rename_i path middle action
    have first : path = [] := by
      refine List.length_eq_zero_iff.mp (Nat.le_zero.mp ?_)
      rw [List.length_append, List.length_singleton] at short
      exact Nat.le_of_succ_le_succ short
    have same : middle = initial := by
      cases before with
      | here => rfl
      | step => simp at first
    subst same
    refine List.mem_cons_of_mem _ (List.mem_filterMap.mpr ⟨action, enabled, ?_⟩)
    rw [applied_reached.mp applies]
    rfl

theorem sample_separates (initial : Model)
    (distinct : ∀ first ∈ sampleStates initial, ∀ second ∈ sampleStates initial,
      first.deterministicHash sampleBlake3 sampleRon = second.deterministicHash sampleBlake3 sampleRon →
        first = second) : Separates (sampleBounds.space sampleBlake3 sampleRon) initial :=
  fun first second _ inside inside' hash hash' =>
    distinct first (mem_sampleStates inside) second (mem_sampleStates inside') (hash.trans hash'.symm)

theorem sample_explored : explore sampleBlake3 sampleRon (Model.new 0) sampleBounds = .ok ⟨3, 2, 1⟩ :=
  explore_of_runFor 4 (by decide +kernel)

def sampleTrace : FailureTrace where
  modelVersion
  aequoraVersion
  invariant := .retryLineagePreservation
  initialStateHash := sampleBlake3 [0, 1]
  initialState := sampleBroken
  actions := [.crashServer]
  detail := "operation ModelOperationId(1) has no durable correlation"

theorem sample_violated :
    explore sampleBlake3 sampleRon sampleBroken sampleBounds = .error (.invariant sampleTrace) :=
  explore_of_runFor 4 (by decide +kernel)

/-- Both outcomes occur: three states visited and safe, or a trace of one action. -/
theorem explore_exact_sample : (explore sampleBlake3 sampleRon (Model.new 0) sampleBounds = .ok ⟨3, 2, 1⟩ ∧
      ∀ actions violation,
        Violates (sampleBounds.space sampleBlake3 sampleRon) (Model.new 0) actions violation →
          1 < actions.length) ∧
    explore sampleBlake3 sampleRon sampleBroken sampleBounds = .error (.invariant sampleTrace) ∧
    ∃ violation, sampleTrace.replay sampleBlake3 sampleRon = .ok violation ∧
      violation.invariant = .retryLineagePreservation := by
  have safe := explore_exact (sample_separates (Model.new 0) (by decide +kernel))
  have broken := explore_exact (sample_separates sampleBroken (by decide +kernel))
  obtain ⟨_, _, _, _, far⟩ := safe.1 _ sample_explored (by decide)
  obtain ⟨⟨violation, _, replays, same⟩, _⟩ := broken.2 _ sample_violated
  exact ⟨⟨sample_explored, far⟩, sample_violated, violation, replays, same⟩

/-- Two states may be visited, but both successors of the first wait when the second is
taken, so three are. -/
theorem explore_visits_past_bound :
    ∃ report, explore sampleBlake3 sampleRon (Model.new 0) { maxStates := 2 } = .ok report ∧
      2 < report.visitedStates :=
  ⟨⟨3, 2, 1⟩, explore_of_runFor 4 (by decide +kernel), by decide⟩

/-- With room for three states nothing waits when the third is visited. -/
theorem explore_visited_le_iff_three :
    explore sampleBlake3 sampleRon (Model.new 0) { maxDepth := 1, maxStates := 3 } = .ok ⟨3, 2, 1⟩ ∧
    ∀ search,
      Passes (SearchBounds.space sampleBlake3 sampleRon { maxDepth := 1, maxStates := 3 })
        (start (Model.new 0)) search →
      search.visited.card = 3 → ∀ waiter ∈ search.pending,
        Known (SearchBounds.space sampleBlake3 sampleRon { maxDepth := 1, maxStates := 3 }) search waiter.1 := by
  have explored : explore sampleBlake3 sampleRon (Model.new 0) { maxDepth := 1, maxStates := 3 } = .ok ⟨3, 2, 1⟩ :=
    explore_of_runFor 4 (by decide +kernel)
  exact ⟨explored, (explore_visited_le_iff explored).mp (by decide)⟩

end Aequora.SyncModel
