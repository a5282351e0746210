import Aequora.Base.NumberedLog
import Aequora.SyncModel.Effect

/-! The authority's durable history. An action changes it in one of four ways, and each keeps it
consistent. -/

namespace Aequora.SyncModel

open Std Aequora.Base ServerModel ModelOperation

/-- Both authorities hold the same journal and the same tables derived from it. -/
structure SameHistory (server next : ServerModel) : Prop where
  state : next.state = server.state
  appliedOperations : next.appliedOperations = server.appliedOperations
  operationCorrelations : next.operationCorrelations = server.operationCorrelations
  journal : next.journal = server.journal
  nextSequence : next.nextSequence = server.nextSequence

theorem SameHistory.refl (server : ServerModel) : SameHistory server server := ⟨rfl, rfl, rfl, rfl, rfl⟩

/-- The four ways an action can change the authority's history. -/
inductive HistoryChange (server : ServerModel) : ServerModel → Prop where
  | kept (same : SameHistory server next) : HistoryChange server next
  | conflicted
      (fresh : server.appliedOperations[operation.id]? = none) :
      HistoryChange server
        (server.record operation (.conflict (server.currentVersion operation.entity)))
  | committed {version : Nat}
      (fresh : server.appliedOperations[operation.id]? = none)
      (next : version = saturatingAdd ((server.currentVersion operation.entity).getD 0) 1) :
      HistoryChange server
        ((server.publish operation version).record operation (.accepted server.nextSequence version))
  | truncated (retainThrough : Nat)
      (same : SameHistory (server.truncate retainThrough) next) : HistoryChange server next

theorem Served.historyChange (answered : Served server operation next outcome) : HistoryChange server next := by
  cases answered with
  | pulled => exact .kept (.refl _)
  | retried => exact .kept (.refl _)
  | conflicted fresh _ => exact .conflicted fresh
  | committed fresh _ next => exact .committed fresh next

theorem Served.journal_isPrefix (answered : Served server operation next outcome) :
    server.journal <+: next.journal := by
  cases answered with
  | committed => exact List.prefix_append _ _
  | _ => exact List.prefix_refl _

theorem Promoted.historyChange (ended : Promoted server newInstance action next result) :
    HistoryChange server next := by
  cases ended with
  | fenceExhausted => exact .kept ⟨rfl, rfl, rfl, rfl, rfl⟩
  | lossless => exact .kept ⟨rfl, rfl, rfl, rfl, rfl⟩
  | epochExhausted => exact .truncated _ ⟨rfl, rfl, rfl, rfl, rfl⟩
  | dataLoss => exact .truncated _ ⟨rfl, rfl, rfl, rfl, rfl⟩

theorem Effect.historyChange (effect : Effect model action next result) : HistoryChange model.server next.server := by
  cases effect with
  | served _ _ _ answered => exact answered.historyChange
  | promoted _ _ ended => exact ended.historyChange
  | _ => exact .kept ⟨rfl, rfl, rfl, rfl, rfl⟩

def ServerModel.entityEvents (server : ServerModel) (entity : ModelEntityId) : List ModelEvent :=
  server.journal.filter fun event => decide (event.entity = entity)

/-- The journal is numbered from one, each entity's versions are numbered from one, and
every other table is what the journal says it is. -/
structure HistoryValid (server : ServerModel) : Prop where
  numbered : NumberedFrom ModelEvent.sequence 0 server.journal
  nextSequence : server.nextSequence = server.journal.length + 1
  bounded : server.nextSequence ≤ u64Max
  state : server.state = replay ModelEvent.entity ModelEvent.canonical server.journal
  versions : ∀ entity, NumberedFrom ModelEvent.version 0 (server.entityEvents entity)
  ledger : ∀ operationId sequence version,
    server.appliedOperations[operationId]? = some (.accepted sequence version) ↔
      ∃ event ∈ server.journal, event.operationId = operationId ∧
        event.sequence = sequence ∧ event.version = version
  correlated : ∀ event ∈ server.journal,
    server.operationCorrelations[event.operationId]? = some event.correlationId
  recorded : ∀ operationId ∈ server.appliedOperations, operationId ∈ server.operationCorrelations
  identified : ∀ event ∈ server.journal, event.eventId = ⟨event.sequence⟩
  caused : ∀ event ∈ server.journal, event.causedBy = event.operationId

theorem HistoryValid.initial : HistoryValid .default where
  numbered := trivial
  nextSequence := rfl
  bounded := by decide
  state := rfl
  versions _ := trivial
  ledger := by simp [ServerModel.default]
  correlated := by simp [ServerModel.default]
  recorded := by simp [ServerModel.default]
  identified := by simp [ServerModel.default]
  caused := by simp [ServerModel.default]

section
variable (valid : HistoryValid server)
include valid

theorem HistoryValid.congr (same : SameHistory server next) :
    HistoryValid next where
  numbered := by rw [same.journal]; exact valid.numbered
  nextSequence := by rw [same.journal, same.nextSequence]; exact valid.nextSequence
  bounded := by rw [same.nextSequence]; exact valid.bounded
  state := by rw [same.journal, same.state]; exact valid.state
  versions := by simpa only [entityEvents, same.journal] using valid.versions
  ledger := by rw [same.journal, same.appliedOperations]; exact valid.ledger
  correlated := by rw [same.journal, same.operationCorrelations]; exact valid.correlated
  recorded := by rw [same.appliedOperations, same.operationCorrelations]; exact valid.recorded
  identified := by rw [same.journal]; exact valid.identified
  caused := by rw [same.journal]; exact valid.caused

theorem HistoryValid.event_unique (leftMember : left ∈ server.journal) (rightMember : right ∈ server.journal)
    (same : left.operationId = right.operationId) : left = right := by
  have leftEntry := (valid.ledger _ _ _).mpr ⟨left, leftMember, rfl, rfl, rfl⟩
  have rightEntry := (valid.ledger _ _ _).mpr ⟨right, rightMember, rfl, rfl, rfl⟩
  rw [same, rightEntry] at leftEntry
  have sequences := (ModelOutcome.accepted.inj (Option.some.inj leftEntry)).1
  exact valid.numbered.injective leftMember rightMember sequences.symm

theorem HistoryValid.no_event (fresh : server.appliedOperations[operationId]? = none) :
    ∀ event ∈ server.journal, event.operationId ≠ operationId := by
  rintro event member rfl
  have entry := (valid.ledger _ _ _).mpr ⟨event, member, rfl, rfl, rfl⟩
  rw [fresh] at entry
  cases entry

theorem HistoryValid.currentVersion (entity : ModelEntityId) :
    (server.currentVersion entity).getD 0 = (server.entityEvents entity).length := by
  rw [ServerModel.currentVersion, valid.state, lookup_replay]
  change (((server.entityEvents entity).getLast?.map ModelEvent.canonical).map
    CanonicalEntity.version).getD 0 = _
  cases last : (server.entityEvents entity).getLast? with
  | none => simp [List.getLast?_eq_none_iff.mp last]
  | some _ =>
    have := (valid.versions entity).last last
    simpa [ModelEvent.canonical] using this

end

theorem ServerModel.entityEvents_length_le (server : ServerModel) (entity : ModelEntityId) :
    (server.entityEvents entity).length ≤ server.journal.length :=
  List.length_filter_le _ _

section
variable (valid : HistoryValid server)
include valid

theorem HistoryValid.conflicted (fresh : server.appliedOperations[operation.id]? = none) :
    HistoryValid (server.record operation (.conflict version)) where
  numbered := valid.numbered
  nextSequence := valid.nextSequence
  bounded := valid.bounded
  state := valid.state
  versions := valid.versions
  ledger operationId sequence number := by
    simp only [record, lookup_insert]
    by_cases same : operation.id = operationId
    · subst operationId
      have absent := valid.no_event fresh
      simp only [↓reduceIte, Option.some.injEq, reduceCtorEq, false_iff]
      rintro ⟨event, member, chosen, -⟩
      exact absent event member chosen
    · simpa only [same, ↓reduceIte] using valid.ledger operationId sequence number
  correlated event member := by
    have different : operation.id ≠ event.operationId := fun same =>
      valid.no_event fresh event member same.symm
    simpa [record, lookup_insert, different] using valid.correlated event member
  recorded operationId member := by
    simp only [record, ExtTreeMap.mem_insert] at member ⊢
    exact member.imp_right (valid.recorded operationId)
  identified := valid.identified
  caused := valid.caused

theorem HistoryValid.versions_committed
    (next : version = (server.entityEvents operation.entity).length + 1) (entity : ModelEntityId) :
    NumberedFrom ModelEvent.version 0 (((server.publish operation version).record operation
      (.accepted server.nextSequence version)).entityEvents entity) := by
  by_cases same : operation.entity = entity
  · subst entity
    have extended : NumberedFrom ModelEvent.version 0
        (server.entityEvents operation.entity ++ [operation.event server.nextSequence version]) :=
      (valid.versions operation.entity).snoc (by simpa [event] using next)
    simpa [entityEvents, record, publish, List.filter_append, event] using extended
  · simpa [entityEvents, record, publish, List.filter_append, event, same] using valid.versions entity

/-- The new entry of the ledger is the new event, and the others are the earlier ones. -/
theorem HistoryValid.ledger_committed
    (fresh : server.appliedOperations[operation.id]? = none) (operationId : ModelOperationId)
    (sequence number : Nat) :
    ((server.publish operation version).record operation
        (.accepted server.nextSequence version)).appliedOperations[operationId]? =
        some (.accepted sequence number) ↔
      ∃ event ∈ ((server.publish operation version).record operation
          (.accepted server.nextSequence version)).journal, event.operationId = operationId ∧
        event.sequence = sequence ∧ event.version = number := by
  simp only [record, publish, lookup_insert, List.mem_append, List.mem_singleton]
  by_cases same : operation.id = operationId
  · subst operationId
    simp only [↓reduceIte, Option.some.injEq, ModelOutcome.accepted.injEq]
    constructor
    · rintro ⟨rfl, rfl⟩
      exact ⟨_, .inr rfl, rfl, rfl, rfl⟩
    · rintro ⟨event, member | rfl, chosen, first, second⟩
      · exact absurd chosen (valid.no_event fresh event member)
      · exact ⟨first, second⟩
  · simp only [same, ↓reduceIte]
    rw [valid.ledger]
    constructor
    · rintro ⟨event, member, rest⟩
      exact ⟨event, .inl member, rest⟩
    · rintro ⟨event, member | rfl, chosen, rest⟩
      · exact ⟨event, member, chosen, rest⟩
      · exact absurd chosen same

theorem HistoryValid.committed (fresh : server.appliedOperations[operation.id]? = none)
    (next : version = saturatingAdd ((server.currentVersion operation.entity).getD 0) 1)
    (room : server.nextSequence < u64Max) :
    HistoryValid ((server.publish operation version).record operation
      (.accepted server.nextSequence version)) := by
  have count := server.entityEvents_length_le operation.entity
  have length := valid.nextSequence
  have version_eq : version = (server.entityEvents operation.entity).length + 1 := by
    rw [next, valid.currentVersion, saturatingAdd_one_of_lt (by omega)]
  have absent := valid.no_event fresh
  constructor
  case numbered =>
    exact valid.numbered.snoc (by simpa [ModelOperation.event] using valid.nextSequence)
  case nextSequence =>
    simp only [record, publish, List.length_append, List.length_singleton]
    rw [saturatingAdd_one_of_lt room, length]
  case bounded => exact saturatingAdd_le _ _
  case state =>
    simp only [record, publish, replay_snoc, valid.state]
    rfl
  case versions => exact valid.versions_committed version_eq
  case ledger => exact valid.ledger_committed fresh
  case correlated =>
    intro event member
    simp only [record, publish, lookup_insert, List.mem_append, List.mem_singleton] at member ⊢
    rcases member with member | rfl
    · have different : operation.id ≠ event.operationId := fun same => absent event member same.symm
      simpa [different] using valid.correlated event member
    · simp [ModelOperation.event]
  case recorded =>
    intro operationId member
    simp only [record, publish, ExtTreeMap.mem_insert] at member ⊢
    exact member.imp_right (valid.recorded operationId)
  case identified =>
    intro event member
    rcases List.mem_append.mp member with member | member
    · exact valid.identified event member
    · rw [List.mem_singleton.mp member]; rfl
  case caused =>
    intro event member
    rcases List.mem_append.mp member with member | member
    · exact valid.caused event member
    · rw [List.mem_singleton.mp member]; rfl

end

/-- An operation survives truncation when one of its events does. -/
def ServerModel.Retained (server : ServerModel) (retainThrough : Nat) (operationId : ModelOperationId) : Prop :=
  ∃ event ∈ server.journal, event.sequence ≤ retainThrough ∧ event.operationId = operationId

theorem ServerModel.truncate_appliedOperations {server : ServerModel} :
    (server.truncate retainThrough).appliedOperations[operationId]? = some outcome ↔
      server.appliedOperations[operationId]? = some outcome ∧
        server.Retained retainThrough operationId := by
  simp [truncate, Retained, and_assoc]

theorem ServerModel.truncate_operationCorrelations {server : ServerModel} :
    (server.truncate retainThrough).operationCorrelations[operationId]? = some correlation ↔
      server.operationCorrelations[operationId]? = some correlation ∧
        server.Retained retainThrough operationId := by
  simp [truncate, Retained, and_assoc]

section
variable (valid : HistoryValid server)
include valid

theorem HistoryValid.truncate_journal (retainThrough : Nat) :
    (server.truncate retainThrough).journal = server.journal.take retainThrough :=
  valid.numbered.filter_le retainThrough

theorem HistoryValid.truncated (retainThrough : Nat) : HistoryValid (server.truncate retainThrough) := by
  have journal := valid.truncate_journal retainThrough
  have kept : ∀ event ∈ (server.truncate retainThrough).journal,
      event ∈ server.journal ∧ event.sequence ≤ retainThrough := by
    intro event member
    simpa [truncate] using member
  have numbered : NumberedFrom ModelEvent.sequence 0 (server.truncate retainThrough).journal := by
    rw [journal]; exact valid.numbered.take retainThrough
  have shorter : (server.truncate retainThrough).journal.length ≤ server.journal.length := by
    rw [journal]; exact List.length_take_le' _ _
  have bounded := valid.bounded
  have length := valid.nextSequence
  have nextSequence : (server.truncate retainThrough).nextSequence =
      (server.truncate retainThrough).journal.length + 1 := by
    change ((server.truncate retainThrough).journal.getLast?.elim 1
      fun event => saturatingAdd event.sequence 1) = _
    cases last : (server.truncate retainThrough).journal.getLast? with
    | none => simp [List.getLast?_eq_none_iff.mp last]
    | some event =>
      have sequence := numbered.last last
      simp only [Option.elim_some]
      rw [saturatingAdd_one_of_lt (by omega), sequence, Nat.zero_add]
  refine ⟨numbered, nextSequence, by omega, rfl, ?_, ?_, ?_, ?_, ?_, ?_⟩
  · intro entity
    refine (valid.versions entity).of_isPrefix ?_
    rw [entityEvents, journal]
    exact (List.take_prefix _ _).filter _
  · intro operationId _ _
    rw [truncate_appliedOperations, valid.ledger]
    constructor
    · rintro ⟨⟨event, member, chosen, rest⟩, _, present, within, same⟩
      cases valid.event_unique member present (chosen.trans same.symm)
      exact ⟨event, by simpa [truncate] using ⟨member, within⟩, chosen, rest⟩
    · rintro ⟨event, member, chosen, rest⟩
      obtain ⟨present, within⟩ := kept event member
      exact ⟨⟨event, present, chosen, rest⟩, event, present, within, chosen⟩
  · intro event member
    obtain ⟨present, within⟩ := kept event member
    rw [truncate_operationCorrelations]
    exact ⟨valid.correlated event present, event, present, within, rfl⟩
  · intro operationId member
    obtain ⟨outcome, entry⟩ := mem_iff_lookup.mp member
    obtain ⟨applied, retained⟩ := truncate_appliedOperations.mp entry
    have original := valid.recorded operationId (mem_iff_lookup.mpr ⟨outcome, applied⟩)
    obtain ⟨correlation, lineage⟩ := mem_iff_lookup.mp original
    exact mem_iff_lookup.mpr
      ⟨correlation, truncate_operationCorrelations.mpr ⟨lineage, retained⟩⟩
  · exact fun event member => valid.identified event (kept event member).1
  · exact fun event member => valid.caused event (kept event member).1

theorem HistoryValid.step (change : HistoryChange server next)
    (room : server.journal.length < next.journal.length → server.nextSequence < u64Max) :
    HistoryValid next := by
  cases change with
  | kept same => exact valid.congr same
  | conflicted fresh => exact valid.conflicted fresh
  | committed fresh version =>
    exact valid.committed fresh version (room (by simp [record, publish]))
  | truncated retainThrough same => exact (valid.truncated retainThrough).congr same

theorem HistoryValid.nextSequence_step (change : HistoryChange server next) :
    next.nextSequence ≤ server.nextSequence ∨
      server.journal.length < next.journal.length ∧ next.nextSequence ≤ server.nextSequence + 1 := by
  cases change with
  | kept same => exact .inl same.nextSequence.le
  | conflicted fresh => exact .inl le_rfl
  | committed _ _ =>
    refine .inr ⟨by simp [record, publish], ?_⟩
    exact Nat.min_le_left _ _
  | truncated retainThrough same =>
    have cut := valid.truncated retainThrough
    have shorter : (server.truncate retainThrough).journal.length ≤ server.journal.length :=
      List.length_filter_le _ _
    have := cut.nextSequence
    have := valid.nextSequence
    rw [same.nextSequence]
    exact .inl (by omega)

end

variable (blake3 : List UInt8 → Vector UInt8 32)

/-- The action appends an event to the journal. -/
def Model.Commits (model : Model) (action : ModelAction) : Prop :=
  model.server.journal.length < (model.step blake3 action).server.journal.length

instance (model : Model) (action : ModelAction) : Decidable (model.Commits blake3 action) :=
  inferInstanceAs (Decidable (_ < _))

/-- A commit only happens while the sequence counter can still advance. -/
def Model.CommitsBelowMax (model : Model) (action : ModelAction) : Prop :=
  model.Commits blake3 action → model.server.nextSequence < u64Max

theorem Model.step_historyValid {model : Model} (valid : HistoryValid model.server)
    (below : model.CommitsBelowMax blake3 action) : HistoryValid (model.step blake3 action).server := by
  obtain ⟨_, effect⟩ := model.step_effect blake3 action
  exact valid.step effect.historyChange below

end Aequora.SyncModel
