import Aequora.Base.Check
import Aequora.Store.Replica

/-! Local stores as replicas. A store that refines the replica of each scope is complete over a run
exactly when no reconciliation misses a change. -/

namespace Aequora.Store

open Aequora.Base Aequora.Protocol

/-- The reconciliation calls of a local store. What a call draws from its surroundings, such as
the time or the outcome of application hooks, is given with it. -/
structure LocalStore (State Surroundings : Type) where
  reconcile : Surroundings → SyncResponse → State → State × Except StoreError Unit
  stageSnapshot : Surroundings → BootstrapResponse → State → State × Except StoreError Unit

open LocalStore

inductive LocalAction (Surroundings : Type) where
  | reconcile (around : Surroundings) (response : SyncResponse)
  | stageSnapshot (around : Surroundings) (page : BootstrapResponse)

/-- Every change belongs to the scope of the response and carries a journal sequence. -/
def WellFormed (response : SyncResponse) : Prop :=
  ∀ change ∈ response.changes, change.scopeId = response.nextCursor.scope ∧ 0 < change.sequence

/-- The store implements the replica of every scope; a refused call changes none of them. -/
structure Refinement {State Surroundings : Type} (store : LocalStore State Surroundings) where
  view : State → SyncScopeId → Replica
  reconcile : ∀ around response state scope, WellFormed response →
    view (store.reconcile around response state).1 scope =
      if (store.reconcile around response state).2 = .ok () ∧ response.nextCursor.scope = scope then
        (view state scope).reconcile response
      else view state scope
  onward : ∀ around response state, WellFormed response → (store.reconcile around response state).2 = .ok () →
    (view state response.nextCursor.scope).cursor.elim 0 Cursor.sequence ≤ response.nextCursor.sequence
  stage : ∀ around page state scope,
    view (store.stageSnapshot around page state).1 scope =
      if (store.stageSnapshot around page state).2 = .ok () ∧ page.cursor.scope = scope then
        (view state scope).stage page
      else view state scope

variable {State : Type}

/-- A store that refines the replicas installs cursors as they do. -/
theorem Refinement.stage_cursor {store : LocalStore State Surroundings}
    (refinement : Refinement store) (around : Surroundings) (page : BootstrapResponse) (state : State)
    (scope : SyncScopeId) :
    (refinement.view (store.stageSnapshot around page state).1 scope).cursor =
      if (store.stageSnapshot around page state).2 = .ok () ∧ page.hasMore = false ∧ page.cursor.scope = scope then
        some page.cursor
      else (refinement.view state scope).cursor := by
  rw [refinement.stage]
  by_cases staged : (store.stageSnapshot around page state).2 = .ok () ∧ page.cursor.scope = scope
  · rw [if_pos staged, Replica.stage_cursor]
    simp only [staged, true_and, and_true]
  · rw [if_neg staged, if_neg fun installed => staged ⟨installed.1, installed.2.2⟩]

def commitOrRollback {State : Type} (state : State) :
    Except StoreError State → State × Except StoreError Unit
  | .ok next => (next, .ok ())
  | .error error => (state, .error error)

theorem commitOrRollback_keeps (property : State → Prop) (before : property state)
    (committed : ∀ next, result = .ok next → property next) : property (commitOrRollback state result).1 := by
  cases result with
  | error _ => exact before
  | ok next => exact committed next rfl

theorem commitOrRollback_accepted (accepted : (commitOrRollback state result).2 = .ok ()) :
    result = .ok (commitOrRollback state result).1 := by
  cases result with
  | error _ => cases accepted
  | ok _ => rfl

theorem commitOrRollback_refused
    (refused : (commitOrRollback state result).2 ≠ .ok ()) : (commitOrRollback state result).1 = state := by
  cases result with
  | error _ => rfl
  | ok _ => exact absurd rfl refused

/-- A store whose calls are transactions. -/
def LocalStore.ofTransactions {State Surroundings : Type}
    (reconcile : Surroundings → SyncResponse → State → Except StoreError State)
    (stageSnapshot : Surroundings → BootstrapResponse → State → Except StoreError State) :
    LocalStore State Surroundings where
  reconcile around response state := commitOrRollback state (reconcile around response state)
  stageSnapshot around page state := commitOrRollback state (stageSnapshot around page state)

theorem commitOrRollback_view {view : State → Replica} [Decidable target]
    (committed : ∀ next, result = .ok next → view next = if target then changed else view state) :
    view (commitOrRollback state result).1 =
      if (commitOrRollback state result).2 = .ok () ∧ target then changed else view state := by
  cases result with
  | error _ => exact (if_neg fun accepted => nomatch accepted.1).symm
  | ok next => simp [commitOrRollback, committed next rfl]

/-- A transaction that applies the changes of a response one by one reconciles the content. -/
theorem foldlM_apply_view {apply : State → RemoteChange → Except StoreError State}
    (view : State → Replica) [Decidable target] {changes : List RemoteChange}
    (applied : ∀ change ∈ changes, ∀ state next, apply state change = .ok next →
      view next = if target then (view state).apply change else view state)
    (ended : changes.foldlM apply first = .ok last) :
    view last = if target then changes.foldl Replica.apply (view first) else view first := by
  by_cases here : target
  · simp only [if_pos here] at applied ⊢
    exact foldlM_simulates view applied ended
  · simp only [if_neg here] at applied ⊢
    exact foldlM_keeps view applied ended

/-- Transactions refine the replicas if those that commit do. -/
def Refinement.ofTransactions {State Surroundings : Type}
    {reconcile : Surroundings → SyncResponse → State → Except StoreError State}
    {stageSnapshot : Surroundings → BootstrapResponse → State → Except StoreError State}
    (view : State → SyncScopeId → Replica)
    (reconciled : ∀ {around response state next}, WellFormed response →
      reconcile around response state = .ok next →
        (view state response.nextCursor.scope).cursor.elim 0 Cursor.sequence ≤
            response.nextCursor.sequence ∧
          ∀ scope, view next scope = if response.nextCursor.scope = scope then
            (view state scope).reconcile response else view state scope)
    (staged : ∀ {around page state next}, stageSnapshot around page state = .ok next →
      ∀ scope, view next scope = if page.cursor.scope = scope then
        (view state scope).stage page else view state scope) :
    Refinement (LocalStore.ofTransactions reconcile stageSnapshot) where
  view
  reconcile _ _ _ scope formed := commitOrRollback_view fun _ ended => (reconciled formed ended).2 scope
  onward around response state formed accepted := by
    cases ended : reconcile around response state with
    | ok next => exact (reconciled formed ended).1
    | error error =>
      simp [LocalStore.ofTransactions, commitOrRollback, ended] at accepted
  stage _ _ _ scope := commitOrRollback_view fun _ ended => staged ended scope

structure Session (State : Type) where
  state : State
  received : List SnapshotEntity

def receive (received : List SnapshotEntity) (page : BootstrapResponse) : List SnapshotEntity :=
  if page.hasMore then received ++ page.entities else []

section Run
variable {Surroundings : Type} (store : LocalStore State Surroundings) (scope : SyncScopeId)

def LocalStore.step (session : Session State) : LocalAction Surroundings → Session State
  | .reconcile around response =>
    { session with state := (store.reconcile around response session.state).1 }
  | .stageSnapshot around page =>
    { state := (store.stageSnapshot around page session.state).1
      received :=
        if (store.stageSnapshot around page session.state).2 = .ok () ∧ page.cursor.scope = scope then
          receive session.received page
        else session.received }

variable {store scope} (refinement : Refinement store) (history : ScopeHistory scope)

/-- What the store accepts is what the authority has: responses deliver exactly the changes from
the stored cursor on, and a snapshot that completes carries the entities of its cursor. -/
def Refinement.Delivered (session : Session State) : LocalAction Surroundings → Prop
  | .reconcile around response => WellFormed response ∧
    ((store.reconcile around response session.state).2 = .ok () → response.nextCursor.scope = scope →
      history.Delivers (refinement.view session.state scope) response)
  | .stageSnapshot around page =>
    (store.stageSnapshot around page session.state).2 = .ok () → page.cursor.scope = scope →
      page.hasMore = false →
        overwrite SnapshotEntity.entity id (fun _ => none) (session.received ++ page.entities) =
          history.stateAt page.cursor.timeline page.cursor.sequence

/-- No accepted reconciliation misses a change. -/
def Refinement.Thorough (session : Session State) : LocalAction Surroundings → Prop
  | .reconcile around response =>
    (store.reconcile around response session.state).2 = .ok () → response.nextCursor.scope = scope →
      history.AppliesAll (refinement.view session.state scope) response
  | .stageSnapshot _ _ => True

/-- Responses continue the stored timeline, and no snapshot completes below a mark. -/
def Refinement.Forward (scope : SyncScopeId) (session : Session State) : LocalAction Surroundings → Prop
  | .reconcile around response =>
    (store.reconcile around response session.state).2 = .ok () → response.nextCursor.scope = scope →
      ScopeHistory.Follows (refinement.view session.state scope) response
  | .stageSnapshot around page =>
    (store.stageSnapshot around page session.state).2 = .ok () → page.cursor.scope = scope →
      page.hasMore = false →
        ∀ sequence, (refinement.view session.state scope).content.marks sequence = true →
          sequence ≤ page.cursor.sequence

/-- What is staged is what was received. -/
def Refinement.Receiving (scope : SyncScopeId) (session : Session State) : Prop :=
  (refinement.view session.state scope).staged =
    overwrite SnapshotEntity.entity id (fun _ => none) session.received

variable {refinement history}

variable {session : Session State} {action : LocalAction Surroundings}

section
variable (receiving : refinement.Receiving scope session) (delivered : refinement.Delivered history session action)
include receiving delivered

theorem Refinement.Receiving.step : refinement.Receiving scope (store.step scope session action) := by
  cases action with
  | reconcile around _ =>
    rw [Receiving, LocalStore.step, refinement.reconcile _ _ _ _ delivered.1]
    split
    · exact receiving
    · exact receiving
  | stageSnapshot _ _ =>
    rw [Receiving, LocalStore.step, refinement.stage]
    split
    · simp only [Replica.stage, receive]
      split
      · rw [overwrite_append, ← receiving]
      · rfl
    · exact receiving

/-- One delivered call keeps a complete replica complete precisely when it misses nothing. -/
theorem Refinement.step_complete_iff (complete : history.Complete (refinement.view session.state scope)) :
    history.Complete (refinement.view (store.step scope session action).state scope) ↔
      refinement.Thorough history session action := by
  cases action with
  | reconcile around _ =>
    rw [step, refinement.reconcile _ _ _ _ delivered.1]
    split
    · rename_i accepted
      obtain ⟨accepted, rfl⟩ := accepted
      rw [history.reconcile_complete_iff (delivered.2 accepted rfl) (refinement.onward _ _ _ delivered.1 accepted)]
      exact ⟨fun thorough _ _ => thorough, fun thorough => thorough accepted rfl⟩
    · rename_i elsewhere
      exact iff_of_true complete fun accepted same => absurd ⟨accepted, same⟩ elsewhere
  | stageSnapshot _ _ =>
    refine iff_of_true ?_ trivial
    rw [step, refinement.stage]
    split
    · rename_i accepted
      unfold Replica.stage
      dsimp only
      split
      · exact complete
      · rename_i last
        have carried := delivered accepted.1 accepted.2 (Bool.eq_false_iff.mpr last)
        rw [overwrite_append, ← receiving] at carried
        exact carried
    · exact complete

end

/-- Over a whole run of delivered calls, the replica is complete throughout exactly when no
accepted reconciliation misses a change. -/
theorem Refinement.complete_iff
    (fresh : refinement.view start.state scope = Replica.empty) (nothing : start.received = [])
    (delivered : Run.Permitted (store.step scope) (refinement.Delivered history) start actions) :
    Run.Throughout (store.step scope)
        (fun session => history.Complete (refinement.view session.state scope)) start actions ↔
      Run.Permitted (store.step scope) (refinement.Thorough history) start actions := by
  have receiving : Run.Throughout (store.step scope) (refinement.Receiving scope) start actions := by
    refine .of_step ?_ (fun _ _ held allowed => Receiving.step held allowed) delivered
    rw [Receiving, fresh, nothing]
    rfl
  apply Run.throughout_iff_permitted
  · rw [fresh]
    rfl
  · intro before action after split complete
    exact step_complete_iff (Run.throughout_iff_cut.mp receiving before (action :: after) split)
      (Run.permitted_iff_cut.mp delivered before action after split) complete

theorem Refinement.bounded_step (bounded : ScopeHistory.Bounded (refinement.view session.state scope))
    (delivered : refinement.Delivered history session action)
    (forward : refinement.Forward scope session action) :
    ScopeHistory.Bounded (refinement.view (store.step scope session action).state scope) := by
  cases action with
  | reconcile around _ =>
    rw [step, refinement.reconcile _ _ _ _ delivered.1]
    split
    · rename_i accepted
      obtain ⟨accepted, rfl⟩ := accepted
      exact bounded.reconcile history (delivered.2 accepted rfl)
        (refinement.onward _ _ _ delivered.1 accepted)
    · exact bounded
  | stageSnapshot _ _ =>
    rw [step, refinement.stage]
    split
    · rename_i accepted
      unfold Replica.stage
      dsimp only
      split
      · exact bounded
      · rename_i last
        exact forward accepted.1 accepted.2 (Bool.eq_false_iff.mpr last)
    · exact bounded

theorem Refinement.thorough_of_forward (complete : history.Complete (refinement.view session.state scope))
    (bounded : ScopeHistory.Bounded (refinement.view session.state scope))
    (delivered : refinement.Delivered history session action)
    (forward : refinement.Forward scope session action) :
    refinement.Thorough history session action := by
  cases action with
  | reconcile around _ =>
    intro accepted here
    exact history.appliesAll_of_bounded (delivered.2 accepted here) (forward accepted here) complete bounded
  | stageSnapshot _ _ => trivial

/-- A run that only moves forward is complete throughout. -/
theorem Refinement.complete_of_forward
    (fresh : refinement.view start.state scope = Replica.empty) (nothing : start.received = [])
    (delivered : Run.Permitted (store.step scope) (refinement.Delivered history) start actions)
    (forward : Run.Permitted (store.step scope) (refinement.Forward scope) start actions) :
    Run.Throughout (store.step scope)
      (fun session => history.Complete (refinement.view session.state scope)) start actions := by
  -- The marks stay below the cursor, so no delivered change is marked.
  have kept : Run.Throughout (store.step scope)
      (fun session => refinement.Receiving scope session ∧
        history.Complete (refinement.view session.state scope) ∧
        ScopeHistory.Bounded (refinement.view session.state scope)) start actions := by
    refine .of_step ?_ ?_ (delivered.and forward)
    · rw [Receiving, fresh, nothing]
      exact ⟨rfl, rfl, fun _ marked => nomatch marked⟩
    · intro _ _ held allowed
      obtain ⟨receiving, complete, bounded⟩ := held
      obtain ⟨delivered, forward⟩ := allowed
      refine ⟨receiving.step delivered, ?_, bounded_step bounded delivered forward⟩
      exact (step_complete_iff receiving delivered complete).mpr
        (thorough_of_forward complete bounded delivered forward)
  exact kept.mono fun _ held => held.2.1

end Run

end Aequora.Store
