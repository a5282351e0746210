import Aequora.SyncModel.Safety

/-! Convergence: the authority's state is the replay of its journal, and a client in the current
epoch holds the replay up to its cursor. -/

namespace Aequora.SyncModel

open Std Aequora.Base ClientModel Run

abbrev replayEvents (events : List ModelEvent) : ExtTreeMap ModelEntityId CanonicalEntity :=
  replay ModelEvent.entity ModelEvent.canonical events

/-- The client holds exactly the prefix of the journal its cursor names. -/
structure Replica (journal : List ModelEvent) (client : ClientModel) : Prop where
  within : client.cursor ≤ journal.length
  state : client.authoritativeState = replayEvents (journal.take client.cursor)

section
variable (replica : Replica journal client)
include replica

theorem Replica.extend (initial : journal <+: longer) : Replica longer client := by
  obtain ⟨_, rfl⟩ := initial
  refine ⟨replica.within.trans (by simp), ?_⟩
  rw [List.take_append_of_le_length replica.within]
  exact replica.state

theorem Replica.applyEvent
    (numbered : NumberedFrom ModelEvent.sequence 0 journal) (member : event ∈ journal)
    (following : event.sequence = client.cursor + 1) : Replica journal (client.applyEvent event) := by
  have next : event.sequence = 0 + client.cursor + 1 := by omega
  obtain ⟨_, cut⟩ := numbered.take_succ member next
  refine ⟨?_, ?_⟩
  · change event.sequence ≤ journal.length
    omega
  · change client.authoritativeState.insert event.entity event.canonical =
      replayEvents (journal.take event.sequence)
    rw [following, cut, replica.state]
    exact (replay_snoc _ _).symm

theorem Replica.applyChanges (numbered : NumberedFrom ModelEvent.sequence 0 journal)
    (published : ∀ event ∈ changes, event ∈ journal)
    (ended : client.applyChanges changes = (applied, result)) : Replica journal applied := by
  have kept : Replica journal (client.applyChanges changes).1 :=
    applyChanges_induction replica
      fun _ event member following current => current.applyEvent numbered (published event member) following
  rwa [ended] at kept

end

theorem HistoryValid.bootstrap_replica (valid : HistoryValid server) (client : ClientModel) :
    Replica server.journal (server.bootstrap client) := by
  have head := valid.head
  constructor
  · exact head.le
  · change server.state = replayEvents (server.journal.take (server.journal.getLast?.elim 0 _))
    rw [head, List.take_length, valid.state]

section
variable (effect : Effect model action next result) (fenced : model.server.authorityEpoch ≤ model.server.fenceToken)
include effect fenced

/-- An action either stays in its epoch and only appends to the journal, or opens a later epoch. -/
theorem Effect.timeline : next.server.authorityEpoch = model.server.authorityEpoch ∧
        model.server.journal <+: next.server.journal ∨
      model.server.authorityEpoch < next.server.authorityEpoch := by
  cases effect with
  | served _ _ _ answered =>
    exact .inl ⟨answered.sameAuthority.authorityEpoch, answered.journal_isPrefix⟩
  | promoted _ _ ended =>
    cases ended with
    | fenceExhausted => exact .inl ⟨rfl, List.prefix_refl _⟩
    | lossless => exact .inl ⟨rfl, List.prefix_refl _⟩
    | epochExhausted _ _ => omega
    | dataLoss => exact .inr (Nat.lt_succ_self _)
  | _ => exact .inl ⟨rfl, List.prefix_refl _⟩

theorem Effect.epoch_le_fence : next.server.authorityEpoch ≤ next.server.fenceToken := by
  cases effect with
  | served _ _ _ answered =>
    have same := answered.sameAuthority
    exact same.authorityEpoch.le.trans (fenced.trans same.fenceToken.ge)
  | promoted _ _ ended =>
    cases ended with
    | fenceExhausted => exact fenced
    | lossless => exact Nat.le_succ_of_le fenced
    | epochExhausted => exact Nat.le_succ_of_le fenced
    | dataLoss => exact Nat.succ_le_succ fenced
  | _ => exact fenced

end

/-- The inductive invariant behind convergence: replicas and responses of the current epoch
only hold events of the current journal. -/
structure Model.Replicated (model : Model) : Prop extends model.Consistent where
  fenced : model.server.authorityEpoch ≤ model.server.fenceToken
  replicas : ∀ (clientId : ClientId) client, model.clients[clientId]? = some client →
    client.cursorEpoch = model.server.authorityEpoch → Replica model.server.journal client
  responded : ∀ response ∈ model.network.responses,
    response.authorityEpoch ≤ model.server.authorityEpoch
  published : ∀ response ∈ model.network.responses,
    response.authorityEpoch = model.server.authorityEpoch →
      ∀ event ∈ response.changes, event ∈ model.server.journal

theorem Model.Replicated.initial (clientCount : UInt8) : (Model.new clientCount).Replicated where
  toConsistent := .initial clientCount
  fenced := le_rfl
  replicas clientId client found _ := by
    rw [new_clients found]
    exact ⟨le_rfl, rfl⟩
  responded response member := by simp [Model.new, NetworkModel.default] at member
  published response member := by simp [Model.new, NetworkModel.default] at member

theorem Model.Replicated.clientChange (replicated : model.Replicated) (found : model.clients[clientId]? = some client)
    (change : ClientChange model action clientId client after)
    (current : after.cursorEpoch = model.server.authorityEpoch) :
    Replica model.server.journal after := by
  have valid := replicated.history
  -- Outside a snapshot the client keeps its epoch, so it was a replica before the action.
  have before : client.cursorEpoch = model.server.authorityEpoch → Replica model.server.journal client :=
    replicated.replicas clientId client found
  cases change with
  | interrupted member mine epoch gap =>
    have same := (applyChanges_sameIntent gap).cursorEpoch
    have replica := before (same.symm.trans current)
    exact replica.applyChanges valid.numbered
      (replicated.published _ member (by rw [← epoch, ← same, current])) gap
  | reconciled member _ epoch complete =>
    rw [reconcile_cursorEpoch] at current
    have same := (applyChanges_sameIntent complete).cursorEpoch
    have replica := (before (same.symm.trans current)).applyChanges valid.numbered
      (replicated.published _ member (by rw [← epoch, ← same, current])) complete
    exact ⟨by simpa using replica.within, by simpa using replica.state⟩
  | rebootstrapped => exact valid.bootstrap_replica client
  | flagged => exact ⟨(before current).within, (before current).state⟩
  | mutated => exact ⟨(before current).within, (before current).state⟩
  | sent => exact ⟨(before current).within, (before current).state⟩
  | resolved => exact ⟨(before current).within, (before current).state⟩
  | kept => exact before current

theorem Model.Replicated.step {model : Model} (replicated : model.Replicated)
    (below : model.CommitsBelowMax blake3 action) : (model.step blake3 action).Replicated := by
  obtain ⟨_, effect⟩ := model.step_effect blake3 action
  have timeline := effect.timeline replicated.fenced
  refine ⟨replicated.toConsistent.step below, effect.epoch_le_fence replicated.fenced, ?_, ?_, ?_⟩
  · intro clientId _ found current
    obtain ⟨before, present, change⟩ := effect.clientChange found
    have trusted := change.cursorEpoch_le (replicated.timeline clientId before present)
    rcases timeline with ⟨same, longer⟩ | opened
    · exact (replicated.clientChange present change (current.trans same)).extend longer
    · omega
  · intro response member
    rcases effect.response member with earlier | ⟨request, _, outcome, epoch, answered, rfl⟩
    · exact (replicated.responded response earlier).trans effect.authorityEpoch_le
    · exact le_rfl
  · intro response member current event inside
    rcases effect.response member with earlier | ⟨_, _, _, _, _, rfl⟩
    · have old := replicated.responded response earlier
      rcases timeline with ⟨same, longer⟩ | _
      · exact longer.subset (replicated.published response earlier (current.trans same) event inside)
      · omega
    · exact (List.mem_filter.mp inside).1

/-- What convergence means in one state. -/
structure Model.Converged (model : Model) : Prop where
  /-- The authority's state is the fold of its whole journal. -/
  authority : model.server.state = replayEvents model.server.journal
  /-- A client in the current epoch holds the fold of the events up to its cursor. -/
  replica : ∀ (clientId : ClientId) client, model.clients[clientId]? = some client →
    client.cursorEpoch = model.server.authorityEpoch →
    client.authoritativeState =
      replayEvents (model.server.journal.filter fun event => decide (event.sequence ≤ client.cursor))
  /-- Clients at the same cursor of the current epoch agree. -/
  agreement : ∀ (leftId rightId : ClientId) left right,
    model.clients[leftId]? = some left → model.clients[rightId]? = some right →
    left.cursorEpoch = model.server.authorityEpoch → right.cursorEpoch = model.server.authorityEpoch →
    left.cursor = right.cursor → left.authoritativeState = right.authoritativeState
  /-- A client at the journal head holds the authority's state. -/
  caughtUp : ∀ (clientId : ClientId) client, model.clients[clientId]? = some client →
    client.cursorEpoch = model.server.authorityEpoch →
    client.cursor = model.server.journal.getLast?.elim 0 ModelEvent.sequence →
    client.authoritativeState = model.server.state

theorem Model.Replicated.converged {model : Model} (replicated : model.Replicated) :
    model.Converged where
  authority := replicated.history.state
  replica clientId client found current := by
    rw [replicated.history.numbered.filter_le]
    exact (replicated.replicas clientId client found current).state
  agreement leftId rightId left right leftFound rightFound leftCurrent rightCurrent same := by
    rw [(replicated.replicas leftId left leftFound leftCurrent).state,
      (replicated.replicas rightId right rightFound rightCurrent).state, same]
  caughtUp clientId client found current head := by
    rw [(replicated.replicas clientId client found current).state, head, replicated.history.head,
      List.take_length, replicated.history.state]

/-- The authority can still allocate a sequence that is not the last one. -/
def Model.SequenceBelowMax (model : Model) : Prop := model.server.nextSequence < u64Max

instance (model : Model) : Decidable model.SequenceBelowMax := inferInstanceAs (Decidable (_ < _))

/-- Every state reachable from a new model without exhausting the sequence counter has converged. -/
theorem Model.converged_of_reachable (blake3 : List UInt8 → Vector UInt8 32) (clientCount : UInt8)
    (actions : List ModelAction)
    (below : Throughout (step blake3) SequenceBelowMax (Model.new clientCount) actions) :
    (final (step blake3) (Model.new clientCount) actions).Converged := by
  have allowed : Permitted (step blake3) (CommitsBelowMax blake3)
      (Model.new clientCount) actions := below.permitted.mono fun _ _ room _ => room
  have replicated : Throughout (step blake3) Replicated (Model.new clientCount) actions :=
    .of_step (.initial clientCount) (fun _ _ before => before.step) allowed
  exact replicated.final.converged

/-- Two clients, a commit, and a stale duplicate response delivered after a newer one. -/
theorem Model.converged_two_clients : (final (step fun _ => Vector.replicate 32 0) (Model.new 2)
      [.localMutate ⟨0⟩ ⟨⟨0⟩, ⟨0⟩, ⟨0⟩, none, 7⟩, .sendOperation ⟨0⟩, .pull ⟨1⟩, .duplicateRequest 1,
        .deliverRequest 1, .deliverRequest 0, .deliverRequest 0, .deliverResponse 2,
        .deliverResponse 0]).Converged :=
  converged_of_reachable _ 2 _ (by decide +kernel)

end Aequora.SyncModel
