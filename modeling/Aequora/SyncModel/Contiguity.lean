import Aequora.SyncModel.Convergence
import Mathlib.Data.Fintype.Card

/-! No response in flight can show its client a gap. A client's cursor only grows within an epoch,
and a response starts at a cursor its client already had. -/

namespace Aequora.SyncModel

open Std Aequora.Base Run

theorem HistoryValid.journal_length_le (valid : HistoryValid server) : server.journal.length ≤ 256 := by
  have distinct : (server.journal.map fun event => event.operationId.id.toFin).Nodup := by
    refine List.Nodup.map_on (fun left leftMember right rightMember same => ?_) valid.numbered.nodup.of_map
    have equal : left.operationId.id = right.operationId.id := UInt8.toFin_inj.mp same
    exact valid.event_unique leftMember rightMember (congrArg ModelOperationId.mk equal)
  have bound := distinct.length_le_card
  rwa [List.length_map, Fintype.card_fin] at bound

variable {model : Model} {client : ClientModel}

theorem HistoryValid.commitsBelowMax (valid : HistoryValid model.server)
    (blake3 : List UInt8 → Vector UInt8 32) (action : ModelAction) :
    model.CommitsBelowMax blake3 action := by
  intro _
  rw [valid.nextSequence]
  exact Nat.lt_of_le_of_lt (Nat.succ_le_succ valid.journal_length_le) (by decide)

/-- The client has moved past the epoch, or is in it at the cursor or beyond. -/
structure ClientModel.Reached (client : ClientModel) (sentEpoch sentCursor : Nat) : Prop where
  epoch : sentEpoch ≤ client.cursorEpoch
  cursor : client.cursorEpoch = sentEpoch → sentCursor ≤ client.cursor

theorem ClientModel.cursor_le_applyChanges
    (ended : client.applyChanges changes = (applied, result)) : client.cursor ≤ applied.cursor := by
  have grown : client.cursor ≤ (client.applyChanges changes).1.cursor :=
    applyChanges_induction (motive := fun current => client.cursor ≤ current.cursor) le_rfl
      fun current event _ following within => by
        change client.cursor ≤ event.sequence
        omega
  rwa [ended] at grown

theorem ClientChange.reached (change : ClientChange model action clientId client after)
    (replicated : model.Replicated) (found : model.clients[clientId]? = some client)
    (reached : client.Reached epoch cursor) : after.Reached epoch cursor := by
  cases change with
  | interrupted _ _ _ gap =>
    have same := (ClientModel.applyChanges_sameIntent gap).cursorEpoch
    exact ⟨same ▸ reached.epoch, fun current =>
      (reached.cursor (same ▸ current)).trans (ClientModel.cursor_le_applyChanges gap)⟩
  | reconciled _ _ _ complete =>
    have same := (ClientModel.applyChanges_sameIntent complete).cursorEpoch
    refine ⟨?_, fun current => ?_⟩
    · rw [ClientModel.reconcile_cursorEpoch, same]
      exact reached.epoch
    · rw [ClientModel.reconcile_cursorEpoch, same] at current
      rw [ClientModel.reconcile_cursor]
      exact (reached.cursor current).trans (ClientModel.cursor_le_applyChanges complete)
  | rebootstrapped =>
    have trusted := replicated.timeline clientId client found
    refine ⟨reached.epoch.trans trusted, fun current => ?_⟩
    -- A snapshot in the same epoch ends at the journal's head, which no replica has passed.
    have same : client.cursorEpoch = epoch := Nat.le_antisymm (trusted.trans current.le) reached.epoch
    have replica := replicated.replicas clientId client found (same.trans current.symm)
    change cursor ≤ model.server.journal.getLast?.elim 0 ModelEvent.sequence
    rw [replicated.history.head]
    exact (reached.cursor same).trans replica.within
  | _ => exact ⟨reached.epoch, reached.cursor⟩

/-- The inductive invariant behind contiguous delivery. -/
structure Model.Following (model : Model) : Prop extends model.Replicated where
  requested : ∀ request ∈ model.network.requests, ∀ client,
    model.clients[request.client]? = some client → client.Reached request.authorityEpoch request.cursor
  answered : ∀ response ∈ model.network.responses, ∀ client,
    model.clients[response.client]? = some client →
      ∃ start, client.Reached response.authorityEpoch start ∧
        NumberedFrom ModelEvent.sequence start response.changes
  within : ∀ response ∈ model.network.responses, ∀ event ∈ response.changes, event.sequence ≤ u64Max

theorem Model.Following.initial (clientCount : UInt8) : (Model.new clientCount).Following where
  toReplicated := .initial clientCount
  requested request member := by simp [Model.new, NetworkModel.default] at member
  answered response member := by simp [Model.new, NetworkModel.default] at member
  within response member := by simp [Model.new, NetworkModel.default] at member

theorem Model.Following.step (following : model.Following) : (model.step blake3 action).Following := by
  have replicated := following.toReplicated.step (following.history.commitsBelowMax blake3 action)
  obtain ⟨_, effect⟩ := model.step_effect blake3 action
  refine ⟨replicated, ?_, ?_, ?_⟩
  · intro request member after found
    obtain ⟨before, present, change⟩ := effect.clientChange found
    refine change.reached following.toReplicated present ?_
    rcases effect.request member with earlier | ⟨_, _, sender, made, _⟩
    · exact following.requested request earlier before present
    · cases sender.symm.trans present
      rw [made]
      exact ⟨le_rfl, fun _ => le_rfl⟩
  · intro response member _ found
    obtain ⟨before, present, change⟩ := effect.clientChange found
    rcases effect.response member with earlier | ⟨request, asked, outcome, epoch, served, rfl⟩
    · obtain ⟨start, reached, numbered⟩ := following.answered response earlier before present
      exact ⟨start, change.reached following.toReplicated present reached, numbered⟩
    · refine ⟨request.cursor, ?_, replicated.history.numbered.filter_gt (Nat.zero_le _)⟩
      refine change.reached following.toReplicated present ?_
      change before.Reached (model.step blake3 action).server.authorityEpoch request.cursor
      rw [served.sameAuthority.authorityEpoch, ← epoch]
      exact following.requested request asked before present
  · intro response member event inside
    rcases effect.response member with earlier | ⟨_, _, _, _, _, rfl⟩
    · exact following.within response earlier event inside
    · have published := (List.mem_filter.mp inside).1
      have bounds := (replicated.history.numbered.bounds published).2
      have short := replicated.history.journal_length_le
      have room : 256 ≤ u64Max := by decide
      omega

section
variable (blake3 : List UInt8 → Vector UInt8 32) (clientCount : UInt8) (actions : List ModelAction)

theorem Model.following_of_run :
    (final (step blake3) (Model.new clientCount) actions).Following := by
  have throughout : Throughout (step blake3) Following (Model.new clientCount) actions :=
    .of_invariant (.initial clientCount) fun _ _ before => before.step
  exact throughout.final

theorem ClientModel.applyChanges_numbered
    (numbered : NumberedFrom ModelEvent.sequence start changes) (started : start ≤ client.cursor)
    (within : ∀ event ∈ changes, event.sequence ≤ u64Max) : (client.applyChanges changes).2 = .ok () := by
  induction changes generalizing client start with
  | nil => rfl
  | cons event _ ih =>
    obtain ⟨first, later⟩ := numbered
    obtain ⟨_, others⟩ := List.forall_mem_cons.mp within
    rw [applyChanges]
    split
    · rename_i seen
      exact ih later (first ▸ seen) others
    · rename_i ahead
      -- The event lies beyond the cursor, so the response starts exactly there.
      have here : event.sequence = client.cursor + 1 := by omega
      have expected : saturatingAdd client.cursor 1 = client.cursor + 1 :=
        saturatingAdd_one_of_lt (by omega)
      simp only [expected, here, ne_eq, not_true_eq_false, if_false]
      refine ih later ?_ others
      change start + 1 ≤ event.sequence
      omega

/-- A gap is only reported by the change loop of a response of the client's epoch. -/
theorem Model.deliverResponse_gap
    (refused : (model.deliverResponse index).2 = .error (.nonContiguousResponse expected actual)) :
    ∃ response ∈ model.network.responses, ∃ client, model.clients[response.client]? = some client ∧
      client.cursorEpoch = response.authorityEpoch ∧
      (client.applyChanges response.changes).2 = .error (.nonContiguousResponse expected actual) := by
  unfold deliverResponse checkedRemove at refused
  split at refused
  · cases refused
  cases present : model.network.responses[index]? with
  | none => simp [present] at refused
  | some response =>
    simp only [present] at refused
    split at refused
    · cases refused
    · rename_i client found
      split at refused
      · cases refused
      split at refused
      · cases refused
      rename_i current
      refine ⟨response, List.mem_of_getElem? present, client, found, Decidable.not_not.mp current, ?_⟩
      split at refused
      · rename_i applied error gap
        rw [gap]
        exact refused
      · cases refused

/-- What a response in flight holds for a client of its epoch. -/
theorem Model.Following.delivers (following : model.Following) (member : response ∈ model.network.responses)
    (found : model.clients[response.client]? = some client)
    (current : client.cursorEpoch = response.authorityEpoch) :
    (client.applyChanges response.changes).2 = .ok () ∧
      NumberedFrom ModelEvent.sequence client.cursor
        (response.changes.filter fun event => decide (client.cursor < event.sequence)) := by
  obtain ⟨_, reached, numbered⟩ := following.answered response member client found
  have started := reached.cursor current
  exact ⟨ClientModel.applyChanges_numbered numbered started (following.within response member),
    numbered.filter_gt started⟩

/-- In every reachable state no response in flight is refused for a gap, and what it holds beyond
the cursor of its client continues that cursor without one. -/
theorem Model.responses_contiguous :
    (∀ index expected actual,
      ((final (step blake3) (Model.new clientCount) actions).applyUnchecked blake3
        (.deliverResponse index)).2 ≠ .error (.nonContiguousResponse expected actual)) ∧
    ∀ response ∈ (final (step blake3) (Model.new clientCount) actions).network.responses,
      ∀ client, (final (step blake3) (Model.new clientCount) actions).clients[response.client]? =
          some client → client.cursorEpoch = response.authorityEpoch →
        (response.changes.filter fun event => decide (client.cursor < event.sequence)).map
            ModelEvent.sequence =
          List.range' (client.cursor + 1)
            (response.changes.filter fun event => decide (client.cursor < event.sequence)).length := by
  have following := following_of_run blake3 clientCount actions
  generalize final (step blake3) (Model.new clientCount) actions = model at following ⊢
  refine ⟨fun index expected actual refused => ?_, fun response member client found current =>
    (following.delivers member found current).2.map_eq⟩
  obtain ⟨_, member, _, found, current, gap⟩ := deliverResponse_gap refused
  rw [(following.delivers member found current).1] at gap
  cases gap

end

end Aequora.SyncModel
