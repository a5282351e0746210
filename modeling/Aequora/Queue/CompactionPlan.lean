import Aequora.Queue.Compaction

/-! What a compaction plan says. Every operation it removes was never sent and is needed by no
entry; replacements end at an operation that is kept, and cancelled operations go in opposite pairs.
-/

namespace Aequora.Queue

open Std Aequora.Base Aequora.Protocol List

/-- An entry that was never sent and that no entry depends on. -/
structure Removable (entries : List QueueEntry) (entry : QueueEntry) : Prop where
  member : entry ∈ entries
  unsent : entry.mutability = .mutableUnsent
  unneeded : entry.id ∉ dependentIds entries

/-- The plan of a finished pass. -/
def Pass.finished (pass : Pass) : CompactionPlan :=
  { pass.plan with
    operationsAfter := (pass.active.values.filter fun active => active).length
    removeOperations := pass.plan.removeOperations.insertionSort fun left right => (compare left right).isLE
    supersessions := pass.plan.supersessions.insertionSort fun left right =>
      (compare left.oldOperationId right.oldOperationId).isLE }

section Plan
variable {registry : OptimizationRegistry}

theorem passAt_length : passAt codec entries registry entries.length =
    entries.zipIdx.foldlM (compactEntry codec entries registry) (Pass.start entries) := by
  rw [passAt, take_of_length_le (by simp)]

/-- A plan comes from a pass over valid entries that stayed orderable. -/
theorem planCompaction_eq_ok : planCompaction codec entries registry maxOperations = .ok plan ↔
      entries.length ≤ maxOperations ∧ validateEntries codec entries = .ok () ∧
        ∃ pass, passAt codec entries registry entries.length = .ok pass ∧
          verifyActiveDependencies entries pass.active = .ok () ∧ pass.finished = plan := by
  rw [planCompaction, check_bind_eq_ok, require_eq_ok, check_bind_eq_ok, bind_eq_ok_iff, passAt_length]
  simp only [check_bind_eq_ok]
  refine and_congr_right fun _ => and_congr_right fun _ => exists_congr fun pass => ?_
  refine and_congr_right fun _ => and_congr_right fun _ => ?_
  exact ⟨Except.ok.inj, congrArg Except.ok⟩

theorem planCompaction_tracks (planned : planCompaction codec entries registry maxOperations = .ok plan) :
    (entries.map QueueEntry.id).Nodup ∧ ∃ pass, pass.Tracks entries registry entries.length ∧
      passAt codec entries registry entries.length = .ok pass ∧ pass.finished = plan := by
  obtain ⟨-, valid, pass, reached, -, finished⟩ := planCompaction_eq_ok.mp planned
  have distinct := (validateFrom_distinct valid).1
  exact ⟨distinct, pass, passAt_tracks distinct le_rfl reached, reached, finished⟩

variable {pass : Pass} {next : QueueEntry}

theorem unsent_of_slot (taken : registry.slot entry = some slot) : entry.mutability = .mutableUnsent := by
  have continues := continues_of_slot taken
  rw [OptimizationRegistry.resets, Bool.or_eq_false_iff] at continues
  simpa using continues.2

theorem key_of_slot (taken : registry.slot entry = some slot) : registry.compactionKey entry = slot.key := by
  rw [OptimizationRegistry.slot] at taken
  split at taken
  · cases taken
  · split at taken
    · cases taken
      rfl
    · obtain ⟨_, -, rfl⟩ := Option.map_eq_some_iff.mp taken
      rfl
    · cases taken
    · cases taken
    · cases taken

theorem token_of_slot (taken : registry.slot entry = some (.pair key token)) :
    entry.cancellation.map CancellationDescriptor.token = some token := by
  rw [OptimizationRegistry.slot] at taken
  split at taken
  · cases taken
  · split at taken
    · cases taken
    · obtain ⟨_, present, same⟩ := Option.map_eq_some_iff.mp taken
      cases same
      rw [present]
      rfl
    · cases taken
    · cases taken
    · cases taken

theorem compatibleReplace_unneeded
    (compatible : compatibleReplace prior next descriptor dependents = true) : prior.id ∉ dependents := by
  simp only [compatibleReplace, Bool.and_eq_true, decide_eq_true_eq] at compatible
  exact compatible.2

theorem Retirement.Valid.removable {retirement : Retirement} (valid : retirement.Valid entries registry) :
    ∀ supersession ∈ retirement.supersessions, ∃ entry, Removable entries entry ∧
      entry.id = supersession.oldOperationId ∧ registry.slot entry = some retirement.slot := by
  obtain ⟨slot, prior, next⟩ := retirement
  obtain ⟨⟨_, _, -, atFirst, atSecond⟩, priorSlot, nextSlot, givesWay⟩ := valid
  have priorRemovable (unneeded : prior.id ∉ dependentIds entries) : Removable entries prior :=
    ⟨mem_of_getElem? atFirst, unsent_of_slot priorSlot, unneeded⟩
  cases slot with
  | latest key =>
    rw [supersessions, Slot.supersessions, forall_mem_singleton]
    exact ⟨prior, priorRemovable (compatibleReplace_unneeded givesWay), rfl, priorSlot⟩
  | pair _ _ =>
    simp only [Slot.givesWay, oppositePair, Bool.and_eq_true, decide_eq_true_eq] at givesWay
    obtain ⟨⟨-, compatible⟩, unneeded⟩ := givesWay
    rw [supersessions, Slot.supersessions, forall_mem_cons, forall_mem_singleton]
    exact ⟨⟨prior, priorRemovable (compatibleReplace_unneeded compatible), rfl, priorSlot⟩,
      next, ⟨mem_of_getElem? atSecond, unsent_of_slot nextSlot, unneeded⟩, rfl, nextSlot⟩

theorem Pass.Records.removable (records : pass.Records entries registry turn) :
    ∀ operation ∈ pass.plan.removeOperations, ∃ entry, Removable entries entry ∧ entry.id = operation := by
  obtain ⟨_, valid, recorded⟩ := records.retired
  intro _ removed
  rw [records.explained, recorded] at removed
  obtain ⟨supersession, listed, rfl⟩ := mem_map.mp removed
  obtain ⟨retirement, member, listed⟩ := mem_flatMap.mp listed
  obtain ⟨entry, removable, same, -⟩ := (valid retirement member).removable supersession listed
  exact ⟨entry, removable, same⟩

theorem planCompaction_removes (planned : planCompaction codec entries registry maxOperations = .ok plan) :
    ∀ operation ∈ plan.removeOperations, ∃ entry, Removable entries entry ∧ entry.id = operation := by
  obtain ⟨-, _, tracks, -, rfl⟩ := planCompaction_tracks planned
  intro operation removed
  exact tracks.removable operation ((mem_insertionSort _).mp removed)

theorem Pass.Records.active_count (records : pass.Records entries registry turn)
    (distinct : (entries.map QueueEntry.id).Nodup) :
    (pass.active.values.filter fun active => active).length + pass.plan.removeOperations.length = entries.length := by
  let staying := (pass.active.toList.filter fun pair => pair.2).map Prod.fst
  have counted : (pass.active.values.filter fun active => active).length = staying.length := by
    rw [values_eq_map_toList, filter_map, length_map, length_map]
    rfl
  have mem_staying (operation : OperationId) :
      operation ∈ staying ↔ operation ∈ entries.map QueueEntry.id ∧ operation ∉ pass.plan.removeOperations := by
    simp only [staying, mem_map, mem_filter, Prod.exists, exists_and_right, exists_eq_right,
      ExtTreeMap.mem_toList_iff_getElem?_eq_some, records.active]
    simp [knownIds]
  have unique : staying.Nodup := by
    refine Nodup.sublist (filter_sublist.map Prod.fst) ?_
    rw [ExtTreeMap.map_fst_toList_eq_keys]
    exact ExtTreeMap.nodup_keys
  have known : ∀ operation ∈ pass.plan.removeOperations, operation ∈ entries.map QueueEntry.id := by
    intro operation removed
    obtain ⟨_, -, _, found, rfl⟩ := records.seen operation removed
    exact mem_map_of_mem (mem_of_getElem? found)
  have parts : (staying ++ pass.plan.removeOperations).Perm (entries.map QueueEntry.id) := by
    refine (perm_ext_iff_of_nodup (unique.append records.distinct ?_) distinct).mpr fun operation => ?_
    · intro operation stays removed
      exact ((mem_staying operation).mp stays).2 removed
    · rw [mem_append, mem_staying]
      tauto
  rw [counted, ← length_append, parts.length_eq, length_map]

/-! Links from a replaced operation to the one that replaced it. -/

/-- The plan replaced one operation by the other. -/
def CompactionPlan.Link (plan : CompactionPlan) (old new : OperationId) : Prop :=
  { oldOperationId := old, newOperationId := some new, reason := .replacedByLatest } ∈ plan.supersessions

theorem Pass.finished_supersessions :
    supersession ∈ pass.finished.supersessions ↔ supersession ∈ pass.plan.supersessions :=
  mem_insertionSort _

theorem Pass.finished_removed : operation ∈ pass.finished.removeOperations ↔ operation ∈ pass.plan.removeOperations :=
  mem_insertionSort _

section
variable (records : pass.Records entries registry turn) (distinct : (entries.map QueueEntry.id).Nodup)
include records

theorem Pass.Records.linked (link : pass.finished.Link old new) : ∃ prior next key, prior.id = old ∧ next.id = new ∧
      Before entries prior next ∧ registry.slot prior = some (.latest key) ∧
      registry.slot next = some (.latest key) := by
  obtain ⟨_, valid, recorded⟩ := records.retired
  rw [CompactionPlan.Link, finished_supersessions, recorded] at link
  obtain ⟨⟨slot, prior, next⟩, member, listed⟩ := mem_flatMap.mp link
  obtain ⟨before, priorSlot, nextSlot, -⟩ := valid _ member
  cases slot with
  | latest key =>
    cases mem_singleton.mp listed
    exact ⟨prior, next, key, rfl, rfl, before, priorSlot, nextSlot⟩
  | pair _ _ =>
    rcases mem_pair.mp listed with same | same <;> cases same

include distinct

theorem Pass.Records.link_of_removed (member : entry ∈ entries)
    (taken : registry.slot entry = some (.latest key)) (removed : entry.id ∈ pass.plan.removeOperations) :
    ∃ new, pass.finished.Link entry.id new := by
  obtain ⟨_, valid, recorded⟩ := records.retired
  rw [records.explained, recorded] at removed
  obtain ⟨supersession, listed, same⟩ := mem_map.mp removed
  obtain ⟨⟨_, _, next⟩, inside, listed⟩ := mem_flatMap.mp listed
  obtain ⟨other, removable, identity, otherSlot⟩ := (valid _ inside).removable supersession listed
  have twin : other = entry := inj_on_of_nodup_map distinct removable.member member (identity.trans same)
  rw [twin, taken] at otherSlot
  cases otherSlot
  refine ⟨next.id, ?_⟩
  rw [CompactionPlan.Link, finished_supersessions, recorded]
  refine mem_flatMap.mpr ⟨_, inside, ?_⟩
  cases mem_singleton.mp listed
  rw [← same]
  exact mem_singleton_self _

omit records in
theorem before_trans
    (earlier : Before entries first second) (later : Before entries third last) (same : second.id = third.id) :
    Before entries first last := by
  obtain ⟨start, _, below, atStart, atMiddle⟩ := earlier
  obtain ⟨_, stop, above, atPlace, atStop⟩ := later
  cases position_unique distinct atMiddle atPlace same
  exact ⟨start, stop, below.trans above, atStart, atStop⟩

theorem Pass.Records.chain
    (chain : Relation.TransGen pass.finished.Link old new) : ∃ prior next, prior.id = old ∧ next.id = new ∧
      Before entries prior next ∧ registry.compactionKey prior = registry.compactionKey next := by
  induction chain with
  | single link =>
    obtain ⟨prior, next, key, first, second, before, priorSlot, nextSlot⟩ := records.linked link
    exact ⟨prior, next, first, second, before, (key_of_slot priorSlot).trans (key_of_slot nextSlot).symm⟩
  | tail _ link ih =>
    obtain ⟨prior, middle, first, reached, before, sameKey⟩ := ih
    obtain ⟨again, next, _, resumed, second, after, priorSlot, nextSlot⟩ := records.linked link
    have twin : middle = again := by
      obtain ⟨_, _, _, _, atMiddle⟩ := before
      obtain ⟨_, _, _, atAgain, _⟩ := after
      exact inj_on_of_nodup_map distinct (mem_of_getElem? atMiddle) (mem_of_getElem? atAgain)
        (reached.trans resumed.symm)
    refine ⟨prior, next, first, second, before_trans distinct before after (reached.trans resumed.symm), ?_⟩
    rw [sameKey, twin, key_of_slot priorSlot, key_of_slot nextSlot]

/-- Following links from an entry of a replacement slot ends at one that is kept. -/
theorem Pass.Records.chain_ends {position : Nat}
    (found : entries[position]? = some entry) (taken : registry.slot entry = some (.latest key)) :
    ∃ last ∈ entries, Relation.ReflTransGen pass.finished.Link entry.id last.id ∧
      last.id ∉ pass.finished.removeOperations := by
  -- Links lead to later positions, so what is left of the queue shrinks.
  generalize left : entries.length - position = remaining
  induction remaining using Nat.strong_induction_on generalizing entry position with
  | _ _ ih =>
    by_cases removed : entry.id ∈ pass.plan.removeOperations
    · obtain ⟨_, link⟩ := records.link_of_removed distinct (mem_of_getElem? found) taken removed
      obtain ⟨_, next, _, first, rfl, ⟨_, stop, _, atStart, atStop⟩, priorSlot, nextSlot⟩ :=
        records.linked link
      cases position_unique distinct atStart found first
      have inside := (List.getElem?_eq_some_iff.mp atStop).1
      have nextSlot : registry.slot next = some (.latest key) := by
        cases found.symm.trans atStart
        rw [nextSlot, ← priorSlot, taken]
      obtain ⟨last, member, chain, kept⟩ := ih (entries.length - stop) (by omega) atStop nextSlot rfl
      exact ⟨last, member, .head link chain, kept⟩
    · exact ⟨entry, mem_of_getElem? found, .refl, fun listed => removed (finished_removed.mp listed)⟩

end

/-! Cancelled pairs. -/

def Retirement.cancelled (retirement : Retirement) : Option (QueueEntry × QueueEntry) :=
  match retirement.slot with
  | .latest _ => none
  | .pair _ _ => some (retirement.prior, retirement.next)

def Supersession.cancels (supersession : Supersession) : Bool := supersession.reason = .canceledPair

theorem cancelled_of_retirements (retirements : List Retirement) :
    ((retirements.flatMap Retirement.supersessions).filter Supersession.cancels).map Supersession.oldOperationId =
      (retirements.filterMap Retirement.cancelled).flatMap fun pair => [pair.1.id, pair.2.id] := by
  induction retirements with
  | nil => rfl
  | cons retirement _ ih =>
    obtain ⟨slot, _, _⟩ := retirement
    rw [flatMap_cons, filter_append, map_append, ih]
    cases slot with
    | latest key => rfl
    | pair _ _ => rfl

/-- Two entries of one key and token that cancel each other. -/
structure Opposite (registry : OptimizationRegistry) (entries : List QueueEntry) (prior next : QueueEntry) : Prop where
  before : Before entries prior next
  actions : actionsAreOpposite prior next = true
  key : registry.compactionKey prior = registry.compactionKey next
  token : prior.cancellation.map CancellationDescriptor.token = next.cancellation.map CancellationDescriptor.token

theorem Retirement.Valid.opposite {retirement : Retirement} (valid : retirement.Valid entries registry) (cancelled : retirement.cancelled = some pair) :
    Opposite registry entries pair.1 pair.2 := by
  obtain ⟨slot, _, _⟩ := retirement
  obtain ⟨before, priorSlot, nextSlot, givesWay⟩ := valid
  cases slot with
  | latest key => cases cancelled
  | pair _ _ =>
    cases cancelled
    simp only [Slot.givesWay, oppositePair, Bool.and_eq_true] at givesWay
    exact ⟨before, givesWay.1.1, (key_of_slot priorSlot).trans (key_of_slot nextSlot).symm,
      (token_of_slot priorSlot).trans (token_of_slot nextSlot).symm⟩

/-- What a compaction plan promises about the entries it was made for. -/
structure CompactionPlan.Sound (registry : OptimizationRegistry) (entries : List QueueEntry) (plan : CompactionPlan) :
    Prop where
  distinct : plan.removeOperations.Nodup
  removable : ∀ operation ∈ plan.removeOperations, ∃ entry, Removable entries entry ∧ entry.id = operation
  explained : plan.supersessions.map Supersession.oldOperationId = plan.removeOperations
  before : plan.operationsBefore = entries.length
  after : plan.operationsAfter + plan.removeOperations.length = plan.operationsBefore
  chain : ∀ old new, Relation.TransGen plan.Link old new → ∃ prior next, prior.id = old ∧ next.id = new ∧
    Before entries prior next ∧ registry.compactionKey prior = registry.compactionKey next
  replaced : ∀ supersession ∈ plan.supersessions, supersession.reason = .replacedByLatest → ∃ last ∈ entries,
    Relation.TransGen plan.Link supersession.oldOperationId last.id ∧ last.id ∉ plan.removeOperations
  cancelled : ∃ pairs : List (QueueEntry × QueueEntry), (∀ pair ∈ pairs, Opposite registry entries pair.1 pair.2) ∧
    ((plan.supersessions.filter Supersession.cancels).map Supersession.oldOperationId).Perm
      (pairs.flatMap fun pair => [pair.1.id, pair.2.id])

theorem Pass.Records.sound (records : pass.Records entries registry turn)
    (distinct : (entries.map QueueEntry.id).Nodup) : pass.finished.Sound registry entries where
  distinct := (perm_insertionSort _ _).nodup_iff.mpr records.distinct
  removable operation removed := records.removable operation (finished_removed.mp removed)
  explained := by
    have sorted := map_insertionSort
      (fun left right : Supersession => (compare left.oldOperationId right.oldOperationId).isLE = true)
      (fun left right : OperationId => (compare left right).isLE = true) Supersession.oldOperationId
      pass.plan.supersessions fun _ _ _ _ => Iff.rfl
    rw [← records.explained] at sorted
    exact sorted
  before := records.before
  after := by
    have sameLength : pass.finished.removeOperations.length = pass.plan.removeOperations.length :=
      (perm_insertionSort _ _).length_eq
    rw [sameLength]
    exact (records.active_count distinct).trans records.before.symm
  chain _ _ := records.chain distinct
  replaced supersession listed reason := by
    obtain ⟨retirements, valid, recorded⟩ := records.retired
    have listed := finished_supersessions.mp listed
    rw [recorded] at listed
    obtain ⟨⟨slot, prior, next⟩, member, listed⟩ := mem_flatMap.mp listed
    obtain ⟨⟨_, _, _, _, atSecond⟩, _, nextSlot, _⟩ := valid _ member
    cases slot with
    | pair key _ =>
      rcases mem_pair.mp listed with same | same <;> (rw [same] at reason; cases reason)
    | latest _ =>
      have link : pass.finished.Link prior.id next.id := by
        rw [CompactionPlan.Link, finished_supersessions, recorded]
        exact mem_flatMap.mpr ⟨_, member, mem_singleton_self _⟩
      obtain ⟨last, inside, chain, kept⟩ := records.chain_ends distinct atSecond nextSlot
      rw [mem_singleton.mp listed]
      exact ⟨last, inside, .head' link chain, kept⟩
  cancelled := by
    obtain ⟨retirements, valid, recorded⟩ := records.retired
    refine ⟨retirements.filterMap Retirement.cancelled, ?_, ?_⟩
    · intro _ listed
      obtain ⟨retirement, member, cancelled⟩ := mem_filterMap.mp listed
      exact (valid retirement member).opposite cancelled
    · rw [← cancelled_of_retirements, ← recorded]
      exact ((perm_insertionSort _ _).filter _).map _

/-! How planning fails. -/

def QueueError.concernsOrder : QueueError → Bool
  | .requiredOperationRemoved _ | .dependencyCycle => true
  | _ => false

theorem encoded_error (failed : encoded codec operation = .error error) : error = .encoding := by
  unfold encoded at failed
  split at failed
  · cases failed
  · exact (Except.error.inj failed).symm

theorem supersede_error (failed : supersede codec entry replacement pass = .error error) : error = .encoding := by
  rcases bind_eq_error_iff.mp failed with sizeless | ⟨_, -, impossible⟩
  · rw [serializedSize] at sizeless
    cases outcome : encoded codec entry.operation with
    | ok _ => rw [outcome] at sizeless; cases sizeless
    | error _ =>
      rw [outcome] at sizeless
      cases sizeless
      exact encoded_error outcome
  · cases impossible

theorem compactEntry_error
    (failed : compactEntry codec entries registry pass (entry, index) = .error error) : error = .encoding := by
  unfold compactEntry at failed
  dsimp only at failed
  split at failed
  · cases failed
  · split at failed
    · cases failed
    · split at failed
      · rcases bind_eq_error_iff.mp failed with now | ⟨_, -, impossible⟩
        · unfold supersedePrior at now
          split at now
          · cases now
          · split at now
            · exact supersede_error now
            · cases now
        · cases impossible
      · split at failed
        · cases failed
        · unfold cancelPair at failed
          split at failed
          · cases failed
          · split at failed
            · rcases bind_eq_error_iff.mp failed with now | ⟨_, -, later⟩
              · exact supersede_error now
              · rcases bind_eq_error_iff.mp later with now | ⟨_, -, impossible⟩
                · exact supersede_error now
                · cases impossible
            · cases failed
      all_goals cases failed

theorem validateFrom_error
    (failed : validateFrom codec ids sequences entries = .error error) : error.concernsOrder = false := by
  induction entries generalizing ids sequences with
  | nil => cases failed
  | cons entry _ ih =>
    rw [validateFrom, check_bind_eq_error, require_eq_error, check_bind_eq_error, require_eq_error,
      check_bind_eq_error] at failed
    rcases failed with ⟨-, rfl⟩ | ⟨-, ⟨-, rfl⟩ | ⟨-, changed | ⟨-, later⟩⟩⟩
    · rfl
    · rfl
    · unfold validateImmutable at changed
      split at changed
      · rcases bind_eq_error_iff.mp changed with hashless | ⟨_, -, different⟩
        · rw [semanticEnvelopeHash] at hashless
          cases outcome : encoded codec entry.operation with
          | ok _ => rw [outcome] at hashless; cases hashless
          | error _ =>
            rw [outcome] at hashless
            cases hashless
            rw [encoded_error outcome]
            rfl
        · rw [require_eq_error] at different
          rw [← different.2]
          rfl
      · cases changed
    · exact ih later

theorem Pass.Records.required_active (records : pass.Records entries registry turn) (listed : edge ∈ dependencyEdges entries pass.active)
    (known : edge.1 ∈ knownIds entries) : pass.active[edge.1]? = some true := by
  obtain ⟨entry, active, listed⟩ := mem_flatMap.mp listed
  obtain ⟨dependency, needed, rfl⟩ := mem_map.mp listed
  rw [records.active, if_pos known, Option.some.injEq, decide_eq_true_eq]
  intro removed
  obtain ⟨_, removable, same⟩ := records.removable dependency removed
  apply removable.unneeded
  rw [dependentIds, mem_toFinset, same, mem_flatMap]
  exact ⟨entry, mem_of_mem_filter active, needed⟩

theorem Pass.Records.verify_error (records : pass.Records entries registry turn)
    (failed : verifyActiveDependencies entries pass.active = .error error) : error = .dependencyCycle := by
  rcases bind_eq_error_iff.mp failed with required | ⟨table, -, cyclic⟩
  · obtain ⟨_, listed, _, step⟩ := exists_of_foldlM_error required
    rcases bind_eq_error_iff.mp step with inactive | ⟨-, -, impossible⟩
    · rw [requireActive, require_eq_error, not_not] at inactive
      obtain ⟨⟨known, inactive⟩, -⟩ := inactive
      rw [records.required_active listed known] at inactive
      cases inactive
    · cases impossible
  · exact (require_eq_error.mp cyclic).2.symm

/-- Planning fails on its input, or the entries that stay decide: they can be ordered, or form a cycle. -/
theorem planCompaction_cases (codec : EnvelopeCodec) (entries : List QueueEntry) (registry : OptimizationRegistry)
    (maxOperations : Nat) :
    (∃ error, planCompaction codec entries registry maxOperations = .error error ∧ error.concernsOrder = false) ∨
    ∃ pass : Pass, (entries.map QueueEntry.id).Nodup ∧ pass.Tracks entries registry entries.length ∧
      (verifyActiveDependencies entries pass.active = .ok () ∧
          planCompaction codec entries registry maxOperations = .ok pass.finished ∨
        verifyActiveDependencies entries pass.active = .error .dependencyCycle ∧
          planCompaction codec entries registry maxOperations = .error .dependencyCycle) := by
  cases outcome : planCompaction codec entries registry maxOperations with
  | ok _ =>
    obtain ⟨-, valid, pass, reached, verified, rfl⟩ := planCompaction_eq_ok.mp outcome
    have distinct := (validateFrom_distinct valid).1
    exact .inr ⟨pass, distinct, passAt_tracks distinct le_rfl reached, .inl ⟨verified, rfl⟩⟩
  | error _ =>
    rw [planCompaction, check_bind_eq_error, require_eq_error, check_bind_eq_error, bind_eq_error_iff] at outcome
    rcases outcome with ⟨-, rfl⟩ | ⟨-, invalid | ⟨valid, unencodable | ⟨pass, passed, failed⟩⟩⟩
    · exact .inl ⟨_, rfl, rfl⟩
    · exact .inl ⟨_, rfl, validateFrom_error invalid⟩
    · obtain ⟨⟨_, _⟩, -, _, turned⟩ := exists_of_foldlM_error unencodable
      refine .inl ⟨_, rfl, ?_⟩
      rw [compactEntry_error turned]
      rfl
    · have distinct := (validateFrom_distinct valid).1
      rw [← passAt_length] at passed
      have tracks := passAt_tracks distinct le_rfl passed
      rcases check_bind_eq_error.mp failed with cyclic | ⟨-, impossible⟩
      · cases tracks.verify_error cyclic
        exact .inr ⟨pass, distinct, tracks, .inr ⟨cyclic, rfl⟩⟩
      · cases impossible

end Plan

/-- A plan removes only unsent operations nobody needs, once each and with one supersession each; the
replacements of an operation lead within its key to a later one that is kept, and cancelled operations
go in opposite pairs. An operation that is still required is never removed. -/
theorem compaction_plan_sound (codec : EnvelopeCodec) (entries : List QueueEntry) (registry : OptimizationRegistry)
    (maxOperations : Nat) :
    (∀ plan, planCompaction codec entries registry maxOperations = .ok plan → plan.Sound registry entries) ∧
      ∀ operation, planCompaction codec entries registry maxOperations ≠ .error (.requiredOperationRemoved operation) := by
  constructor
  · intro _ planned
    obtain ⟨distinct, pass, tracks, -, rfl⟩ := planCompaction_tracks planned
    exact tracks.sound distinct
  · intro _ failed
    rcases planCompaction_cases codec entries registry maxOperations with
      ⟨error, other, input⟩ | ⟨pass, -, -, ⟨-, planned⟩ | ⟨-, cycle⟩⟩
    · cases failed.symm.trans other
      cases input
    · cases failed.symm.trans planned
    · cases failed.symm.trans cycle

/-- An entry of the given kind on the given entity. -/
def sampleEntry (id : BitVec 128) (kind : UInt16) (entity : BitVec 128) (cancellation : Option CancellationDescriptor) :
    QueueEntry where
  localSequence := id.toNat
  operation :=
    { protocolVersion := 1
      operationId := ⟨id⟩
      tenantId := ⟨1⟩
      actorId := ⟨1⟩
      deviceId := ⟨1⟩
      entity := { entityType := 1, entityId := ⟨entity⟩ }
      baseVersion := none
      createdAt := { physicalMs := 0, logical := 0, node := ⟨1⟩ }
      schemaVersion := 1
      operationKind := kind
      payload := []
      metadata := { traceId := none, dependencies := [], lineage := { correlationId := ⟨1⟩, causedBy := none } } }
  mutability := .mutableUnsent
  immutableHash := none
  cancellation

def sampleCodec : EnvelopeCodec where
  toStdvec operation := some operation.payload
  blake3 _ := Vector.replicate 32 0

/-- Kind 1 replaces earlier updates, kind 2 deletes, kind 3 cancels in pairs. -/
def sampleRegistry : OptimizationRegistry :=
  ((OptimizationRegistry.default.register 1
    { OperationOptimization.default with compaction := .replaceLatest, shape := .update }).register 2
    { OperationOptimization.default with shape := .delete }).register 3
    { OperationOptimization.default with compaction := .cancelPairs, shape := .update }

def sampleEntries : List QueueEntry :=
  [sampleEntry 1 1 1 none, sampleEntry 2 3 1 (some { token := [7], action := .add }), sampleEntry 3 1 1 none,
    sampleEntry 4 3 1 (some { token := [7], action := .remove })]

def samplePlan : CompactionPlan where
  operationsBefore := 4
  operationsAfter := 1
  removeOperations := [⟨1⟩, ⟨2⟩, ⟨4⟩]
  supersessions :=
    [{ oldOperationId := ⟨1⟩, newOperationId := some ⟨3⟩, reason := .replacedByLatest },
      { oldOperationId := ⟨2⟩, newOperationId := none, reason := .canceledPair },
      { oldOperationId := ⟨4⟩, newOperationId := none, reason := .canceledPair }]
  bytesSaved := 0
  barriers := 0
  sensitivePreserved := 0

theorem compaction_plan_sound_mixed : planCompaction sampleCodec sampleEntries sampleRegistry 4 = .ok samplePlan ∧
      samplePlan.Sound sampleRegistry sampleEntries := by
  have planned : planCompaction sampleCodec sampleEntries sampleRegistry 4 = .ok samplePlan := by decide +kernel
  exact ⟨planned, (compaction_plan_sound sampleCodec sampleEntries sampleRegistry 4).1 samplePlan planned⟩

end Aequora.Queue
