import Aequora.Base.Run
import Aequora.SyncModel.Checks
import Aequora.SyncModel.ClientChange
import Aequora.SyncModel.History

/-! The eight checks that no sequence of actions can violate while fewer than
`u64::MAX` sequences and fences are allocated. -/

namespace Aequora.SyncModel

open Std Aequora.Base ClientModel ServerModel Run

/-- The applied events are exactly the sequences up to the cursor. -/
def ClientModel.Contiguous (client : ClientModel) : Prop :=
  client.appliedEvents = Finset.Icc 1 client.cursor

theorem ClientModel.Contiguous.applyEvent {client : ClientModel}
    (contiguous : client.Contiguous) (following : event.sequence = client.cursor + 1) :
    (client.applyEvent event).Contiguous := by
  simp only [Contiguous, ClientModel.applyEvent] at contiguous ⊢
  rw [contiguous, following]
  ext sequence
  simp only [Finset.mem_insert, Finset.mem_Icc]
  omega

theorem ClientModel.Contiguous.applyChanges {client applied : ClientModel}
    (contiguous : client.Contiguous) (ended : client.applyChanges changes = (applied, result)) :
    applied.Contiguous := by
  have kept : (client.applyChanges changes).1.Contiguous :=
    applyChanges_induction contiguous
      fun _ _ _ following current => current.applyEvent following
  rwa [ended] at kept

theorem HistoryValid.head (valid : HistoryValid server) :
    server.journal.getLast?.elim 0 ModelEvent.sequence = server.journal.length := by
  cases last : server.journal.getLast? with
  | none => simp [List.getLast?_eq_none_iff.mp last]
  | some _ => simpa using valid.numbered.last last

theorem HistoryValid.bootstrap_contiguous (valid : HistoryValid server) (client : ClientModel) :
    (server.bootstrap client).Contiguous := by
  simp only [Contiguous, bootstrap, rebuildOverlay]
  rw [valid.head, valid.numbered.toFinset, Nat.zero_add]
  rfl

theorem ClientChange.contiguous (change : ClientChange model action clientId client after)
    (valid : HistoryValid model.server) (contiguous : client.Contiguous) : after.Contiguous := by
  cases change with
  | interrupted _ _ _ gap => exact contiguous.applyChanges gap
  | reconciled _ _ _ complete =>
    have applied := contiguous.applyChanges complete
    simpa [Contiguous] using applied
  | rebootstrapped => exact valid.bootstrap_contiguous client
  | _ => exact contiguous

/-- The inductive invariant behind the eight checks. -/
structure Model.Consistent (model : Model) : Prop where
  history : HistoryValid model.server
  contiguous : ∀ (clientId : ClientId) client,
    model.clients[clientId]? = some client → client.Contiguous
  timeline : ∀ (clientId : ClientId) client,
    model.clients[clientId]? = some client → client.cursorEpoch ≤ model.server.authorityEpoch

theorem Model.Consistent.initial (clientCount : UInt8) : (Model.new clientCount).Consistent where
  history := HistoryValid.initial
  contiguous clientId client found := by rw [new_clients found]; rfl
  timeline clientId client found := by rw [new_clients found]; exact le_rfl

theorem Model.Consistent.step {model : Model} (consistent : model.Consistent)
    (below : model.CommitsBelowMax blake3 action) : (model.step blake3 action).Consistent := by
  obtain ⟨_, effect⟩ := model.step_effect blake3 action
  refine ⟨step_historyValid blake3 consistent.history below, ?_, ?_⟩
  · intro clientId after found
    obtain ⟨before, present, change⟩ := effect.clientChange found
    exact change.contiguous consistent.history (consistent.contiguous clientId before present)
  · intro clientId _ found
    obtain ⟨before, present, change⟩ := effect.clientChange found
    exact (change.cursorEpoch_le (consistent.timeline clientId before present)).trans
      effect.authorityEpoch_le

private theorem checkVersions_ok (before rest : List ModelEvent)
    (seen : ∀ entity, versions[entity]?.getD 0 =
      (before.filter fun event => decide (event.entity = entity)).length)
    (numbered : ∀ entity, NumberedFrom ModelEvent.version 0
      ((before ++ rest).filter fun event => decide (event.entity = entity))) :
    checkVersions versions rest = .ok () := by
  induction rest generalizing before versions with
  | nil => rfl
  | cons event _ ih =>
    have own := numbered event.entity
    rw [List.filter_append, List.filter_cons_of_pos (by simp), NumberedFrom.append_iff] at own
    have version := own.2.1
    rw [checkVersions, seen event.entity, if_neg (by omega)]
    refine ih (before ++ [event]) (fun entity => ?_) (by simpa using numbered)
    rw [lookup_insert, List.filter_append]
    by_cases same : event.entity = entity
    · subst entity
      simp [version]
    · simp [same, seen entity]

theorem HistoryValid.effects_le_one (valid : HistoryValid server) (operationId : ModelOperationId) :
    server.effects operationId ≤ 1 := by
  have distinct : server.journal.Nodup := valid.numbered.nodup.of_map
  unfold effects
  match events : server.journal.filter fun event => event.operationId == operationId with
  | [] => simp [events]
  | [_] => simp [events]
  | first :: second :: _ =>
    have firstIn := List.mem_filter.mp (events ▸ List.mem_cons_self)
    have secondIn := List.mem_filter.mp (events ▸ List.mem_cons_of_mem first List.mem_cons_self)
    have same : first.operationId = second.operationId := by
      rw [beq_iff_eq.mp firstIn.2, beq_iff_eq.mp secondIn.2]
    have nodup := events ▸ distinct.filter _
    rw [valid.event_unique firstIn.1 secondIn.1 same] at nodup
    simp at nodup

theorem HistoryValid.effects_eq (valid : HistoryValid server) (recorded : server.appliedOperations[operationId]? = some outcome) :
    server.effects operationId = outcome.isAccepted.toNat := by
  cases outcome with
  | accepted _ _ =>
    obtain ⟨event, member, chosen, -⟩ := (valid.ledger _ _ _).mp recorded
    have atMost := valid.effects_le_one operationId
    have atLeast : 0 < server.effects operationId :=
      List.length_pos_of_mem (List.mem_filter.mpr ⟨member, by simp [chosen]⟩)
    simp only [ModelOutcome.isAccepted, Bool.toNat_true]
    omega
  | conflict _ =>
    simp only [ModelOutcome.isAccepted, Bool.toNat_false, effects, List.length_eq_zero_iff,
      List.filter_eq_nil_iff, beq_iff_eq]
    rintro event member rfl
    have entry := (valid.ledger _ _ _).mpr ⟨event, member, rfl, rfl, rfl⟩
    rw [recorded] at entry
    cases entry

/-- The checks of the registry that hold in every run, in registry order. -/
def Model.PassesSafetyChecks (model : Model) : Prop :=
  model.checkIdempotentAuthority = .ok () ∧
  model.checkAuthoritativePublicationAtomicity = .ok () ∧
  model.checkCursorSafety = .ok () ∧
  model.checkVersionMonotonicity = .ok () ∧
  model.checkRetryPreservation = .ok () ∧
  model.checkReconciliationIdempotency = .ok () ∧
  model.checkTimelineSafety = .ok () ∧
  model.checkLineage = .ok ()

theorem Model.Consistent.passesSafetyChecks {model : Model} (consistent : model.Consistent) :
    model.PassesSafetyChecks := by
  have valid := consistent.history
  refine ⟨?_, ?_, ?_, ?_, ?_, ?_, ?_, ?_⟩
  · exact checkIdempotentAuthority_ok.mpr fun operationId _ => valid.effects_le_one operationId
  · refine checkAuthoritativePublicationAtomicity_ok.mpr ⟨fun event member => ?_, fun _ _ _ => (valid.ledger _ _ _).mp⟩
    exact (valid.ledger _ _ _).mpr ⟨event, member, rfl, rfl, rfl⟩
  · exact checkCursorSafety_ok.mpr consistent.contiguous
  · exact checkVersions_ok [] _ (by simp) valid.versions
  · exact checkRetryPreservation_ok.mpr fun _ _ => valid.effects_eq
  · refine checkReconciliationIdempotency_ok.mpr fun clientId client found => ?_
    rw [consistent.contiguous clientId client found, Nat.card_Icc, Nat.add_sub_cancel]
  · exact checkTimelineSafety_ok.mpr consistent.timeline
  · refine checkLineage_ok.mpr ⟨?_, fun event member => ?_, valid.recorded⟩
    · have numbers : model.server.journal.map (·.eventId) =
          (model.server.journal.map ModelEvent.sequence).map ModelEventId.mk := by
        rw [List.map_map]
        exact List.map_congr_left valid.identified
      rw [numbers]
      exact valid.numbered.nodup.map fun _ _ same => ModelEventId.mk.inj same
    · exact ⟨valid.correlated event member, valid.caused event member⟩

section Runs
variable (blake3 : List UInt8 → Vector UInt8 32)

def ModelAction.isPromotion : ModelAction → Bool
  | .promoteLossless _ => true
  | .promoteWithDataLoss _ _ => true
  | _ => false

def Model.allocations (model : Model) (action : ModelAction) : Nat :=
  (if model.Commits blake3 action then 1 else 0) +
    if action.isPromotion = true ∧ model.Accepts blake3 action then 1 else 0

theorem Model.permitted_of_allocations {actions : List ModelAction} (consistent : model.Consistent)
    (budget : model.server.nextSequence +
      total (step blake3) (allocations blake3) model actions ≤ u64Max) :
    Permitted (step blake3) (CommitsBelowMax blake3) model actions := by
  induction actions generalizing model with
  | nil => trivial
  | cons action _ ih =>
    rw [total] at budget
    have below : model.CommitsBelowMax blake3 action := by
      intro commits
      have : 1 ≤ model.allocations blake3 action := by
        simp only [allocations, if_pos commits]; omega
      omega
    refine ⟨below, ih (consistent.step below) ?_⟩
    obtain ⟨_, effect⟩ := model.step_effect blake3 action
    rcases consistent.history.nextSequence_step effect.historyChange with _ | ⟨commits, _⟩
    · omega
    · have : 1 ≤ model.allocations blake3 action := by
        simp only [allocations, if_pos (show model.Commits blake3 action from commits)]; omega
      omega

theorem Model.consistent_throughout {actions : List ModelAction}
    (allowed : Permitted (step blake3) (CommitsBelowMax blake3)
      (Model.new clientCount) actions) :
    Throughout (step blake3) Consistent (Model.new clientCount) actions :=
  .of_step (.initial clientCount) (fun _ _ consistent below => consistent.step below) allowed

/-- From a new model, every finite sequence of actions with fewer than `u64::MAX` commits and
promotions passes the eight checks after every step, whatever errors it meets on the way. -/
theorem Model.safetyChecks_throughout (clientCount : UInt8) (actions : List ModelAction)
    (budget : total (step blake3) (allocations blake3)
      (Model.new clientCount) actions < 2 ^ 64 - 1) :
    Throughout (step blake3) PassesSafetyChecks (Model.new clientCount) actions := by
  have start : (Model.new clientCount).server.nextSequence = 1 := rfl
  have allowed : Permitted (step blake3) (CommitsBelowMax blake3)
      (Model.new clientCount) actions :=
    permitted_of_allocations blake3 (.initial clientCount)
      (by simp only [start, u64Max]; omega)
  exact (consistent_throughout blake3 allowed).mono
    fun _ consistent => consistent.passesSafetyChecks

/-- One client commits an operation, the response is lost with the authority, and a data-loss
promotion truncates the commit. -/
theorem Model.safetyChecks_failover_run : total (step fun _ => Vector.replicate 32 0)
        (allocations fun _ => Vector.replicate 32 0) (Model.new 1)
        [.localMutate ⟨0⟩ ⟨⟨0⟩, ⟨0⟩, ⟨0⟩, none, 7⟩, .sendOperation ⟨0⟩, .deliverRequest 0, .crashServer,
          .promoteWithDataLoss 2 0, .deliverResponse 0] = 2 ∧
      Throughout (step fun _ => Vector.replicate 32 0) PassesSafetyChecks (Model.new 1)
        [.localMutate ⟨0⟩ ⟨⟨0⟩, ⟨0⟩, ⟨0⟩, none, 7⟩, .sendOperation ⟨0⟩, .deliverRequest 0, .crashServer,
          .promoteWithDataLoss 2 0, .deliverResponse 0] := by
  have count : total (step fun _ => Vector.replicate 32 0)
      (allocations fun _ => Vector.replicate 32 0) (Model.new 1)
      [.localMutate ⟨0⟩ ⟨⟨0⟩, ⟨0⟩, ⟨0⟩, none, 7⟩, .sendOperation ⟨0⟩, .deliverRequest 0, .crashServer,
        .promoteWithDataLoss 2 0, .deliverResponse 0] = 2 := by decide +kernel
  exact ⟨count, safetyChecks_throughout _ 1 _ (by rw [count]; decide)⟩

end Runs

end Aequora.SyncModel
