import Aequora.Queue.RebasePlan
import Aequora.Store.StoolapDelivery

/-! Digests of the Stoolap outbox. A rebase replaces the envelope and not the digest, so the two
stay consistent exactly as long as no rebase changes the hash of a row with a digest. -/

namespace Aequora.Store.StoolapQueue

open Std Aequora.Base Aequora.Protocol Option Queue Run

/-- The digest of the row, if it has one, is the hash of its envelope. -/
def Sealed (codec : EnvelopeCodec) (row : DeliveryRow) : Prop :=
  ∀ digest, row.schedule.payloadDigest = some digest → semanticEnvelopeHash codec row.operation = .ok digest

/-- Every row that may still be sent has no digest or the hash of its envelope. -/
def Consistent (codec : EnvelopeCodec) (outbox : DeliveryTable) : Prop :=
  ∀ (operation : OperationId) (row : DeliveryRow), outbox[operation]? = some row →
    row.state.isReplayable = true → Sealed codec row

/-- Every row is stored under the identity of its envelope. -/
def Keyed (outbox : DeliveryTable) : Prop :=
  ∀ (operation : OperationId) (row : DeliveryRow), outbox[operation]? = some row →
    row.operation.operationId = operation

/-- Rows come from rows with the same envelope, none of them from a terminal one, and a digest
that changes becomes the hash. -/
def Touched (codec : EnvelopeCodec) (before after : DeliveryTable) : Prop :=
  ∀ (operation : OperationId) (row : DeliveryRow), after[operation]? = some row →
    ∃ old, before[operation]? = some old ∧ row.operation = old.operation ∧
      (row.state.isReplayable = true → old.state.isReplayable = true) ∧
      (row.schedule.payloadDigest = old.schedule.payloadDigest ∨ Sealed codec row)

variable {engine : StoolapEngine} {queue : StoolapQueue}
variable {outbox : DeliveryTable}

theorem Sealed.of_same (sealed : Sealed codec old) (envelope : row.operation = old.operation)
    (digest : row.schedule.payloadDigest = old.schedule.payloadDigest) : Sealed codec row := by
  intro value stored
  rw [envelope]
  exact sealed value (digest ▸ stored)

theorem Touched.refl (codec : EnvelopeCodec) (outbox : DeliveryTable) : Touched codec outbox outbox :=
  fun _ row found => ⟨row, found, rfl, id, .inl rfl⟩

theorem Touched.trans (first : Touched codec before middle) (second : Touched codec middle after) :
    Touched codec before after := by
  intro operation row found
  obtain ⟨between, held, envelope, replayable, digest⟩ := second operation row found
  obtain ⟨old, present, envelope', replayable', digest'⟩ := first operation between held
  refine ⟨old, present, envelope.trans envelope', fun live => replayable' (replayable live), ?_⟩
  rcases digest with same | sealed
  · rcases digest' with same' | sealed
    · exact .inl (same.trans same')
    · exact .inr (sealed.of_same envelope same)
  · exact .inr sealed

theorem Touched.insert (found : outbox[operation]? = some old)
    (envelope : row.operation = old.operation) (replayable : old.state.isReplayable = true)
    (digest : row.schedule.payloadDigest = old.schedule.payloadDigest ∨ Sealed codec row) :
    Touched codec outbox (outbox.insert operation row) := by
  intro _ held present
  rw [lookup_insert] at present
  split at present
  · rename_i same
    subst same
    cases present
    exact ⟨old, found, envelope, fun _ => replayable, digest⟩
  · exact ⟨held, present, rfl, id, .inl rfl⟩

theorem Touched.erase (codec : EnvelopeCodec) (outbox : DeliveryTable) (operation : OperationId) :
    Touched codec outbox (outbox.erase operation) := by
  intro _ held present
  rw [lookup_erase] at present
  split at present
  · cases present
  · exact ⟨held, present, rfl, id, .inl rfl⟩

theorem Touched.keyed (touched : Touched codec before after) (keyed : Keyed before) : Keyed after := by
  intro operation row found
  obtain ⟨old, present, envelope, -⟩ := touched operation row found
  rw [envelope]
  exact keyed operation old present

theorem Touched.consistent (touched : Touched codec before after) (consistent : Consistent codec before) :
    Consistent codec after := by
  intro operation row found live
  obtain ⟨old, present, envelope, replayable, digest⟩ := touched operation row found
  rcases digest with same | sealed
  · exact (consistent operation old present (replayable live)).of_same envelope same
  · exact sealed

/-! ## What each call does to the rows -/

theorem markRow_touched (marked : markRow engine missing terminal state before operation = .ok after) :
    Touched engine.codec before after := by
  unfold markRow at marked
  split at marked
  · cases marked
  · rename_i row found
    split at marked
    · rename_i replayable
      obtain ⟨_, -, marked⟩ := bind_eq_ok_iff.mp marked
      cases marked
      exact .insert found rfl replayable (.inl rfl)
    · cases marked

theorem transitionOperations_touched (marked : queue.transitionOperations engine fence operations state = .ok next) :
    Touched engine.codec queue.outbox next.outbox := by
  obtain ⟨-, marked⟩ := check_bind_eq_ok.mp marked
  obtain ⟨outbox, ended, marked⟩ := bind_eq_ok_iff.mp marked
  cases marked
  exact foldlM_invariant (Touched engine.codec queue.outbox) (.refl _ _)
    (fun _ _ _ _ touched marked => touched.trans (markRow_touched marked)) ended

theorem scheduleRetry_touched (marked : queue.scheduleRetry engine fence operations nextAttempt = .ok next) :
    Touched engine.codec queue.outbox next.outbox := by
  obtain ⟨_, -, marked⟩ := bind_eq_ok_iff.mp marked
  obtain ⟨-, ended⟩ := check_bind_eq_ok.mp marked
  refine foldlM_invariant (fun state => Touched engine.codec queue.outbox state.outbox) (.refl _ _) ?_ ended
  intro _ _ _ _ touched scheduled
  obtain ⟨_, marked, scheduled⟩ := bind_eq_ok_iff.mp scheduled
  cases scheduled
  exact touched.trans (markRow_touched marked)

theorem compactOutbox_touched
    (compacted : queue.compactOutbox engine fence registry maxOperations = .ok (next, plan)) :
    Touched engine.codec queue.outbox next.outbox := by
  obtain ⟨_, -, compacted⟩ := bind_eq_ok_iff.mp compacted
  obtain ⟨_, -, compacted⟩ := bind_eq_ok_iff.mp compacted
  obtain ⟨-, compacted⟩ := check_bind_eq_ok.mp compacted
  obtain ⟨_, ended, compacted⟩ := bind_eq_ok_iff.mp compacted
  cases compacted
  refine foldlM_invariant (fun state => Touched engine.codec queue.outbox state.outbox) (.refl _ _) ?_ ended
  intro _ _ _ _ touched superseded
  obtain ⟨-, superseded⟩ := check_bind_eq_ok.mp superseded
  obtain ⟨-, superseded⟩ := check_bind_eq_ok.mp superseded
  cases superseded
  exact touched.trans (.erase _ _ _)

theorem mem_candidates (candidate : entry ∈ queue.candidates time limit) :
    queue.outbox[entry.1]? = some entry.2 ∧ queue.Claimable time entry := by
  have listed := List.mem_filter.mp (mem_sortByKey.mp (List.mem_of_mem_take candidate))
  exact ⟨ExtTreeMap.mem_toList_iff_getElem?_eq_some.mp listed.1, of_decide_eq_true listed.2⟩

theorem claimOne_touched
    (stored : queue.outbox[entry.1]? = some entry.2) (touched : Touched engine.codec queue.outbox claims.1)
    (claimed : claimOne engine owner time claims entry = .ok claims') :
    Touched engine.codec queue.outbox claims'.1 := by
  obtain ⟨_, hashed, claimed⟩ := bind_eq_ok_iff.mp claimed
  obtain ⟨-, claimed⟩ := check_bind_eq_ok.mp claimed
  obtain ⟨_, taken, claimed⟩ := bind_eq_ok_iff.mp claimed
  cases claimed
  refine touched.trans ?_
  unfold takeClaim at taken
  split at taken
  · cases taken
  · rename_i row found
    split at taken
    · rename_i unclaimed
      cases taken
      obtain ⟨_, present, envelope, -⟩ := touched _ row found
      cases present.symm.trans stored
      have replayable : row.state.isReplayable = true := by
        rcases unclaimed with pending | retry
        · rw [pending]; rfl
        · rw [retry]; rfl
      refine .insert found rfl replayable (.inr fun value same => ?_)
      cases same
      rw [envelope]
      exact hash_eq_ok.mp hashed
    · cases taken

theorem claimOperations_touched (claims : queue.claimOperations engine fence owner now limit = .ok (next, claimed)) :
    Touched engine.codec queue.outbox next.outbox := by
  obtain ⟨-, claims⟩ := check_bind_eq_ok.mp claims
  obtain ⟨-, claims⟩ := check_bind_eq_ok.mp claims
  obtain ⟨_, -, claims⟩ := bind_eq_ok_iff.mp claims
  obtain ⟨_, ended, claims⟩ := bind_eq_ok_iff.mp claims
  cases claims
  exact foldlM_invariant (fun claims => Touched engine.codec queue.outbox claims.1) (.refl _ _)
    (fun entry candidate _ _ touched claimed => claimOne_touched (mem_candidates candidate).1 touched claimed) ended

theorem insertOutbox_keyed (keyed : Keyed queue.outbox)
    (inserted : queue.insertOutbox engine envelope = .ok next) : Keyed next.outbox := by
  rcases insertOutbox_cases inserted with ⟨-, rfl⟩ | ⟨-, _, -, rfl⟩
  · exact keyed
  · intro operation row found
    rw [OutboxTable.insertRow, lookup_insert] at found
    split at found
    · rename_i same
      cases found
      exact same
    · exact keyed operation row found

theorem insertOutbox_consistent (consistent : Consistent engine.codec queue.outbox)
    (inserted : queue.insertOutbox engine envelope = .ok next) : Consistent engine.codec next.outbox := by
  rcases insertOutbox_cases inserted with ⟨-, rfl⟩ | ⟨-, _, hashed, rfl⟩
  · exact consistent
  · intro operation row found live
    rw [OutboxTable.insertRow, lookup_insert] at found
    split at found
    · cases found
      intro _ same
      cases same
      exact hashed
    · exact consistent operation row found live

/-! ## Rebase -/

def rebasedRow (rewrite : RebaseRewrite) (row : DeliveryRow) : DeliveryRow :=
  { row with operation := { row.operation with baseVersion := rewrite.newBase } }

theorem queueEntry_operation (made : queueEntry engine row = .ok entry) : entry.operation = row.operation := by
  unfold queueEntry at made
  split at made
  · cases made
    rfl
  · obtain ⟨_, -, made⟩ := bind_eq_ok_iff.mp made
    cases made
    rfl

theorem loadQueueEntries_stored (keyed : Keyed queue.outbox)
    (made : queue.loadQueueEntries engine maxOperations = .ok entries)
    (member : entry ∈ entries) : ∃ row, queue.outbox[entry.id]? = some row ∧ row.operation = entry.operation := by
  obtain ⟨row, listed, queued⟩ := exists_of_mem_mapM made member
  have same := queueEntry_operation queued
  have waits := (List.mem_filter.mp (mem_sortByKey.mp (List.mem_of_mem_take listed))).1
  have stored : queue.outbox[row.operation.operationId]? = some row := (mem_listing keyed).mp waits
  refine ⟨row, ?_, same.symm⟩
  rw [QueueEntry.id, same]
  exact stored

theorem rewriteOne_eq_ok (rewritten : rewriteOne engine loaded queue rewrite = .ok next) :
    ∃ (envelope : OperationEnvelope) (row : DeliveryRow), loaded[rewrite.operationId]? = some envelope ∧
      queue.outbox[rewrite.operationId]? = some row ∧ Unsent row ∧
      next.outbox = queue.outbox.insert rewrite.operationId
        { row with operation := { envelope with baseVersion := rewrite.newBase } } := by
  unfold rewriteOne at rewritten
  split at rewritten
  · cases rewritten
  · rename_i envelope held
    obtain ⟨-, rewritten⟩ := check_bind_eq_ok.mp rewritten
    obtain ⟨_, replaced, rewritten⟩ := bind_eq_ok_iff.mp rewritten
    cases rewritten
    unfold replaceEnvelope at replaced
    split at replaced
    · cases replaced
    · rename_i row found
      split at replaced
      · rename_i unsent
        cases replaced
        exact ⟨envelope, row, held, found, unsent, rfl⟩
      · cases replaced

/-- Rewrites of different rows each replace the envelope of their row and touch no other. -/
theorem rewrites_rows {rewrites : List RebaseRewrite}
    (distinct : (rewrites.map RebaseRewrite.operationId).Nodup)
    (ended : rewrites.foldlM (rewriteOne engine loaded) queue = .ok next) :
    (∀ rewrite ∈ rewrites, ∃ (envelope : OperationEnvelope) (row : DeliveryRow),
      loaded[rewrite.operationId]? = some envelope ∧ queue.outbox[rewrite.operationId]? = some row ∧ Unsent row ∧
      next.outbox[rewrite.operationId]? =
        some { row with operation := { envelope with baseVersion := rewrite.newBase } }) ∧
    ∀ operation ∉ rewrites.map RebaseRewrite.operationId, next.outbox[operation]? = queue.outbox[operation]? := by
  induction rewrites generalizing queue with
  | nil =>
    cases ended
    simp
  | cons rewrite _ ih =>
    rw [List.foldlM_cons, bind_eq_ok_iff] at ended
    obtain ⟨middle, rewritten, ended⟩ := ended
    obtain ⟨envelope, row, held, found, unsent, written⟩ := rewriteOne_eq_ok rewritten
    obtain ⟨once, distinct⟩ := List.nodup_cons.mp distinct
    obtain ⟨others, kept⟩ := ih distinct ended
    have elsewhere {operation : OperationId} (other : rewrite.operationId ≠ operation) :
        middle.outbox[operation]? = queue.outbox[operation]? := by
      rw [written, lookup_insert, if_neg other]
    refine ⟨List.forall_mem_cons.mpr ⟨⟨envelope, row, held, found, unsent, ?_⟩, fun later listed => ?_⟩,
      fun operation unlisted => ?_⟩
    · rw [kept _ once, written, lookup_insert, if_pos rfl]
    · have other : rewrite.operationId ≠ later.operationId := fun same => once (same ▸ List.mem_map_of_mem listed)
      obtain ⟨envelope', row', held', found', unsent', final⟩ := others later listed
      exact ⟨envelope', row', held', (elsewhere other).symm.trans found', unsent', final⟩
    · rw [List.map_cons, List.mem_cons, not_or] at unlisted
      obtain ⟨other, unlisted⟩ := unlisted
      rw [kept operation unlisted, elsewhere (Ne.symm other)]

section Rebase
variable (keyed : Keyed queue.outbox) (consistent : Consistent engine.codec queue.outbox)
  (rebased : queue.rebaseOutbox engine fence registry targets maxOperations = .ok (next, plan))
include keyed rebased

/-- A committed rebase gives the rows it rewrites their new bases and touches nothing else. -/
theorem rebaseOutbox_rows :
    (∀ rewrite ∈ plan.rewrites, ∃ row, queue.outbox[rewrite.operationId]? = some row ∧ Unsent row ∧
      next.outbox[rewrite.operationId]? = some (rebasedRow rewrite row)) ∧
    ∀ operation ∉ plan.rewrites.map RebaseRewrite.operationId,
      next.outbox[operation]? = queue.outbox[operation]? := by
  obtain ⟨_, made, rebased⟩ := bind_eq_ok_iff.mp rebased
  obtain ⟨_, planned, rebased⟩ := bind_eq_ok_iff.mp rebased
  obtain ⟨-, rebased⟩ := check_bind_eq_ok.mp rebased
  obtain ⟨_, ended, rebased⟩ := bind_eq_ok_iff.mp rebased
  cases rebased
  have distinct := planRebase_distinct (LocalOutbox.queueResult_eq_ok.mp planned)
  obtain ⟨rewritten, kept⟩ := rewrites_rows distinct ended
  refine ⟨fun rewrite listed => ?_, kept⟩
  obtain ⟨envelope, row, held, found, unsent, final⟩ := rewritten rewrite listed
  refine ⟨row, found, unsent, final.trans ?_⟩
  -- The envelope that was loaded is the one the row still holds.
  obtain ⟨_, member, pair⟩ := List.mem_map.mp (mem_of_lookup_ofList held)
  obtain ⟨name, rfl⟩ := Prod.mk.inj pair
  obtain ⟨_, present, same⟩ := loadQueueEntries_stored keyed made member
  rw [name, found] at present
  cases present
  rw [rebasedRow, same]

theorem rebaseOutbox_keyed : Keyed next.outbox := by
  obtain ⟨rewritten, kept⟩ := rebaseOutbox_rows keyed rebased
  intro operation row found
  by_cases listed : operation ∈ plan.rewrites.map RebaseRewrite.operationId
  · obtain ⟨rewrite, planned, rfl⟩ := List.mem_map.mp listed
    obtain ⟨old, present, -, final⟩ := rewritten rewrite planned
    cases found.symm.trans final
    exact keyed _ old present
  · exact keyed operation row (kept operation listed ▸ found)

include consistent

theorem rebaseOutbox_consistent_iff :
    Consistent engine.codec next.outbox ↔ ∀ rewrite ∈ plan.rewrites, ∀ row : DeliveryRow,
      queue.outbox[rewrite.operationId]? = some row → Sealed engine.codec (rebasedRow rewrite row) := by
  obtain ⟨rewritten, kept⟩ := rebaseOutbox_rows keyed rebased
  constructor
  · intro after rewrite listed row found
    obtain ⟨old, present, unsent, final⟩ := rewritten rewrite listed
    cases found.symm.trans present
    refine after _ _ final ?_
    rw [rebasedRow, unsent.1]
    rfl
  · intro harmless operation row found live
    by_cases listed : operation ∈ plan.rewrites.map RebaseRewrite.operationId
    · obtain ⟨rewrite, planned, rfl⟩ := List.mem_map.mp listed
      obtain ⟨old, present, -, final⟩ := rewritten rewrite planned
      cases found.symm.trans final
      exact harmless rewrite planned old present
    · exact consistent operation row (kept operation listed ▸ found) live

end Rebase

/-! ## Runs -/

/-- A rebase that commits leaves the hash of every row that has a digest as it was. -/
def KeepsDigests (engine : StoolapEngine) (queue : StoolapQueue) : DeliveryCall → Prop
  | .rebase fence registry targets maxOperations =>
    ∀ next plan, queue.rebaseOutbox engine fence registry targets maxOperations = .ok (next, plan) →
      ∀ rewrite ∈ plan.rewrites, ∀ row : DeliveryRow, queue.outbox[rewrite.operationId]? = some row →
        Sealed engine.codec (rebasedRow rewrite row)
  | _ => True

/-- A call that is not a rebase appends, or touches rows without changing their envelopes. -/
theorem committed_cases (commits : queue.committed engine call = .ok next) :
    (∃ operation, call = .append operation ∧ queue.insertOutbox engine operation = .ok next) ∨
    (∃ fence registry targets maxOperations plan, call = .rebase fence registry targets maxOperations ∧
      queue.rebaseOutbox engine fence registry targets maxOperations = .ok (next, plan)) ∨
    KeepsDigests engine queue call ∧ Touched engine.codec queue.outbox next.outbox := by
  cases call with
  | append operation => exact .inl ⟨operation, rfl, commits⟩
  | rebase fence registry targets maxOperations =>
    obtain ⟨⟨last, plan⟩, rebased, rfl⟩ := map_eq_ok_iff.mp commits
    exact .inr (.inl ⟨fence, registry, targets, maxOperations, plan, rfl, rebased⟩)
  | compact fence _ _ =>
    obtain ⟨⟨last, _⟩, compacted, rfl⟩ := map_eq_ok_iff.mp commits
    exact .inr (.inr ⟨trivial, compactOutbox_touched compacted⟩)
  | markSending fence operations => exact .inr (.inr ⟨trivial, transitionOperations_touched commits⟩)
  | markRetry fence _ _ => exact .inr (.inr ⟨trivial, scheduleRetry_touched commits⟩)
  | claim _ _ _ _ =>
    obtain ⟨⟨_, _⟩, claims, rfl⟩ := map_eq_ok_iff.mp commits
    exact .inr (.inr ⟨trivial, claimOperations_touched claims⟩)

theorem step_keyed (keyed : Keyed queue.outbox) (call : DeliveryCall) : Keyed (queue.step engine call).outbox := by
  refine commitOrRollback_keeps (fun held : StoolapQueue => Keyed held.outbox) keyed fun next commits => ?_
  rcases committed_cases commits with ⟨_, -, inserted⟩ | ⟨_, _, _, _, _, -, rebased⟩ | ⟨-, touched⟩
  · exact insertOutbox_keyed keyed inserted
  · exact rebaseOutbox_keyed keyed rebased
  · exact touched.keyed keyed

theorem step_consistent_iff (keyed : Keyed queue.outbox) (consistent : Consistent engine.codec queue.outbox)
    (call : DeliveryCall) :
    Consistent engine.codec (queue.step engine call).outbox ↔ KeepsDigests engine queue call := by
  cases commits : queue.committed engine call with
  | error _ =>
    have same : queue.step engine call = queue := by rw [step, commits]; rfl
    rw [same]
    refine iff_of_true consistent ?_
    cases call with
    | rebase _ _ _ _ =>
      intro next plan rebased
      simp [committed, rebased, Except.map] at commits
    | _ => trivial
  | ok next =>
    have same : queue.step engine call = next := by rw [step, commits]; rfl
    rw [same]
    rcases committed_cases commits with ⟨_, rfl, inserted⟩ | ⟨_, _, _, _, plan, rfl, rebased⟩ | ⟨kept, touched⟩
    · exact iff_of_true (insertOutbox_consistent consistent inserted) trivial
    · rw [rebaseOutbox_consistent_iff keyed consistent rebased]
      constructor
      · intro harmless _ _ rebased'
        cases rebased.symm.trans rebased'
        exact harmless
      · exact fun harmless => harmless next plan rebased
    · exact iff_of_true (touched.consistent consistent) kept

theorem hash_eq_error
    (failed : engine.hash envelope = .error error) : error = .permanent "operation envelope encoding failed" := by
  unfold StoolapEngine.hash semanticEnvelopeHash encoded at failed
  cases encodes : engine.codec.toStdvec envelope with
  | some _ => simp [encodes, Except.map, LocalOutbox.queueResult] at failed
  | none =>
    simp only [encodes, Except.map, LocalOutbox.queueResult, Except.error.injEq] at failed
    exact failed.symm

theorem takeClaim_eq_error (failed : takeClaim owner time digest outbox operation = .error error) :
    error = .transient "Stoolap outbox claim lost a concurrent candidate" := by
  unfold takeClaim at failed
  split at failed
  · exact (Except.error.inj failed).symm
  · split at failed
    · cases failed
    · exact (Except.error.inj failed).symm

theorem claimOperations_matches (consistent : Consistent engine.codec queue.outbox)
    (failed : queue.claimOperations engine fence owner now limit = .error digestMismatch) :
    fence = .error digestMismatch := by
  rcases check_bind_eq_error.mp failed with zero | ⟨-, failed⟩
  · exact absurd (require_eq_error.mp zero).2 (by decide)
  rcases check_bind_eq_error.mp failed with fenced | ⟨-, failed⟩
  · exact fenced
  rcases bind_eq_error_iff.mp failed with late | ⟨_, -, failed⟩
  · unfold toI64 at late
    split at late
    · cases late
    · exact absurd (Except.error.inj late) (by decide)
  rcases bind_eq_error_iff.mp failed with stopped | ⟨_, -, ended⟩
  · obtain ⟨entry, candidate, _, stopped⟩ := exists_of_foldlM_error stopped
    obtain ⟨stored, unclaimed, -⟩ := mem_candidates candidate
    rcases bind_eq_error_iff.mp stopped with unhashed | ⟨digest, hashed, stopped⟩
    · exact absurd (hash_eq_error unhashed) (by decide)
    rcases check_bind_eq_error.mp stopped with mismatch | ⟨-, stopped⟩
    · -- The row may be sent, so its digest is the hash that the claim computes.
      refine absurd ?_ (require_eq_error.mp mismatch).1
      have live : entry.2.state.isReplayable = true := by
        rcases unclaimed with pending | retry
        · rw [pending]; rfl
        · rw [retry]; rfl
      rw [all_eq_true_iff_get]
      intro isSome
      have sealed := consistent _ _ stored live _ (some_get isSome).symm
      exact decide_eq_true (Except.ok.inj (sealed.symm.trans (hash_eq_ok.mp hashed)))
    rcases bind_eq_error_iff.mp stopped with lost | ⟨_, -, done⟩
    · exact absurd (takeClaim_eq_error lost) (by decide)
    · cases done
  · cases ended

/-- The encoding shows the base of an operation, and the hash shows the encoding. -/
def sampleEngine : StoolapEngine where
  codec :=
    { toStdvec := fun operation => some [operation.baseVersion.elim 0 UInt8.ofNat]
      blake3 := fun bytes => Vector.replicate 32 (bytes.headD 0) }
  encodingFailure := "serialization failed"
  uniqueViolation := "unique constraint failed"

def sampleRegistry : OptimizationRegistry :=
  OptimizationRegistry.default.register 1 { OperationOptimization.default with rebase := .reapplyIntent }

def sampleRebase (version : Option EntityVersion) : DeliveryCall :=
  .rebase (.ok ()) sampleRegistry
    [{ entity := { entityType := 1, entityId := ⟨1⟩ }, version, changedFields := ∅ }] 10

def sampleQueue : StoolapQueue := step sampleEngine empty (.append (LocalOutbox.exampleUpdate 1 []))

theorem sample_keepsDigests : KeepsDigests sampleEngine sampleQueue (sampleRebase none) := by
  intro _ _ rebased _ listed _ found
  have planned : (sampleQueue.rebaseOutbox sampleEngine (.ok ()) sampleRegistry
      [{ entity := { entityType := 1, entityId := ⟨1⟩ }, version := none, changedFields := ∅ }] 10).map Prod.snd =
        .ok { rewrites := [⟨⟨1⟩, none, none⟩], conflicts := [], immutableSkipped := [] } := by decide +kernel
  rw [rebased] at planned
  cases planned
  cases List.mem_singleton.mp listed
  have stored : sampleQueue.outbox[(⟨1⟩ : OperationId)]? = some
      { operation := LocalOutbox.exampleUpdate 1 [], order := 1, state := .pending, terminalDetail := none
        schedule := .new (Vector.replicate 32 0) } := by decide +kernel
  cases found.symm.trans stored
  intro _ same
  cases same
  decide +kernel

end Aequora.Store.StoolapQueue
