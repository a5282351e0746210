import Aequora.Client.Engine
import Aequora.Store.Completeness

/-! Which responses the client engine accepts. Whatever an untrusted server answers, the store sees
exactly the responses that continue the client's own position. -/

namespace Aequora.Client

open Std Aequora.Base Aequora.Protocol Aequora.Store Finset AuthorityId

/-- A response that continues the stored cursor for the submitted operations. -/
structure Accepts (config : ClientConfig) (encodedLength : SyncResponse → Except ClientError Nat)
    (cursor : Option Cursor) (submitted : List OperationId) (response : SyncResponse) : Prop where
  directive : response.directive = .continue
  protocol : response.protocol = config.protocol
  limited : response.changes.length ≤ config.limits.maxChanges ∧
    ∃ bytes ≤ config.limits.maxResponseBytes, encodedLength response = .ok bytes
  scope : response.nextCursor.scope = config.session.scopeId
  timeline : ∀ old, cursor = some old → response.nextCursor.authorityEpoch = old.authorityEpoch ∧
    (old.authorityId ≠ legacyUnbound → response.nextCursor.authorityId = old.authorityId)
  distinct : submitted.Nodup
  answered : ∀ operation, (terminalIds response).count operation = if operation ∈ submitted then 1 else 0
  owned : ∀ change ∈ response.changes,
    change.tenantId = config.session.tenantId ∧ change.scopeId = config.session.scopeId
  above : ∀ change ∈ response.changes, storedSequence cursor < change.sequence
  increasing : (response.changes.map RemoteChange.sequence).Pairwise (· < ·)
  reached : ((response.changes.map RemoteChange.sequence).getLast?).getD (storedSequence cursor) =
    response.nextCursor.sequence
  progresses : ¬Stalled cursor response

theorem validateSyncDirective_eq_ok : validateSyncDirective directive = .ok () ↔ directive = .continue := by
  cases directive <;> simp [validateSyncDirective]

theorem collectResults_eq_ok : collectResults submitted terminal operations = .ok last ↔
      operations.Nodup ∧ (∀ operation ∈ operations, operation ∈ submitted ∧ operation ∉ terminal) ∧
        last = terminal ∪ operations.toFinset := by
  induction operations generalizing terminal with
  | nil => simp [collectResults, eq_comm]
  | cons first _ ih =>
    rw [collectResults]
    split
    · rename_i refused
      refine iff_of_false (fun accepted => nomatch accepted) fun ⟨_, all, _⟩ => ?_
      obtain ⟨listed, unseen⟩ := all first List.mem_cons_self
      exact refused.elim (fun unlisted => unlisted listed) unseen
    · rename_i admitted
      rw [not_or, not_not] at admitted
      rw [ih, List.nodup_cons, List.forall_mem_cons]
      constructor
      · rintro ⟨unique, others, rfl⟩
        refine ⟨⟨fun again => ?_, unique⟩, ⟨admitted, fun operation member => ?_⟩, ?_⟩
        · exact (others first again).2 (mem_insert_self _ _)
        · obtain ⟨listed, unseen⟩ := others operation member
          exact ⟨listed, fun seen => unseen (mem_insert_of_mem seen)⟩
        · rw [List.toFinset_cons, insert_union, union_insert]
      · rintro ⟨⟨fresh, unique⟩, ⟨_, others⟩, rfl⟩
        refine ⟨unique, fun operation member => ⟨(others operation member).1, fun seen => ?_⟩, ?_⟩
        · rcases mem_insert.mp seen with rfl | seen
          · exact fresh member
          · exact (others operation member).2 seen
        · rw [List.toFinset_cons, insert_union, union_insert]

theorem validateOperationResults_eq_ok : validateOperationResults response submitted = .ok () ↔ submitted.Nodup ∧
      ∀ operation, (terminalIds response).count operation = if operation ∈ submitted then 1 else 0 := by
  have checked : validateOperationResults response submitted = .ok () ↔
      submitted.toFinset.card = submitted.length ∧
        collectResults submitted.toFinset ∅ (terminalIds response) = .ok submitted.toFinset := by
    simp only [validateOperationResults, bind_eq_ok_iff, require_eq_ok]
    constructor
    · rintro ⟨_, sized, _, collected, rfl⟩
      exact ⟨require_eq_ok.mp sized, collected⟩
    · rintro ⟨sized, collected⟩
      exact ⟨(), require_eq_ok.mpr sized, _, collected, rfl⟩
  have sized : submitted.toFinset.card = submitted.length ↔ submitted.Nodup :=
    Multiset.toFinset_card_eq_card_iff_nodup
  rw [checked, sized, collectResults_eq_ok, empty_union]
  refine and_congr_right fun distinct => ⟨?_, fun counted => ?_⟩
  · rintro ⟨unique, _, same⟩ operation
    have member : operation ∈ terminalIds response ↔ operation ∈ submitted := by
      rw [← List.mem_toFinset, ← same, List.mem_toFinset]
    simp only [unique.count, member]
  · have member (operation : OperationId) : operation ∈ terminalIds response ↔ operation ∈ submitted := by
      rw [← List.count_pos_iff, counted]
      split <;> simp_all
    refine ⟨List.nodup_iff_count_le_one.mpr fun operation => ?_, fun operation reported => ?_, ?_⟩
    · rw [counted]
      split <;> simp
    · exact ⟨List.mem_toFinset.mpr ((member operation).mp reported), notMem_empty _⟩
    · ext operation
      rw [List.mem_toFinset, List.mem_toFinset, member]

theorem validateTimeline_eq_ok : validateTimeline next cursor = .ok () ↔ ∀ old, cursor = some old →
      next.authorityEpoch = old.authorityEpoch ∧
        (old.authorityId ≠ legacyUnbound → next.authorityId = old.authorityId) := by
  cases cursor with
  | none => simp [validateTimeline]
  | some old =>
    simp only [Option.some.injEq, forall_eq']
    unfold validateTimeline
    dsimp only
    split
    · rename_i foreign
      exact iff_of_false (fun accepted => nomatch accepted) fun ⟨_, bound⟩ => foreign.2 (bound foreign.1)
    · rename_i own
      have same : old.authorityId ≠ legacyUnbound → next.authorityId = old.authorityId :=
        fun bound => not_not.mp fun other => own ⟨bound, other⟩
      split
      · rename_i lower
        exact iff_of_false (fun accepted => nomatch accepted) fun ⟨equal, _⟩ => Nat.ne_of_lt lower equal
      · rename_i notLower
        split
        · rename_i higher
          exact iff_of_false (fun accepted => nomatch accepted) fun ⟨equal, _⟩ => ne_of_gt higher equal
        · rename_i notHigher
          exact iff_of_true rfl ⟨Nat.le_antisymm (Nat.le_of_not_lt notHigher) (Nat.le_of_not_lt notLower), same⟩

theorem validateChanges_eq_ok {reached : Sequence} :
    validateChanges session last previous changes = .ok reached ↔
      (∀ change ∈ changes, change.tenantId = session.tenantId ∧ change.scopeId = session.scopeId) ∧
        (∀ change ∈ changes, previous < change.sequence ∧ change.sequence ≤ last) ∧
        (changes.map RemoteChange.sequence).Pairwise (· < ·) ∧
        ((changes.map RemoteChange.sequence).getLast?).getD previous = reached := by
  induction changes generalizing previous with
  | nil => simp [validateChanges]
  | cons change rest ih =>
    have last? : (change.sequence :: rest.map RemoteChange.sequence).getLast?.getD previous =
        (rest.map RemoteChange.sequence).getLast?.getD change.sequence := by
      cases rest with
      | nil => rfl
      | cons _ _ => simp [List.getLast?_cons]
    rw [validateChanges, List.map_cons, last?, List.pairwise_cons]
    simp only [List.forall_mem_cons, List.forall_mem_map]
    split
    · rename_i foreign
      refine iff_of_false (fun accepted => nomatch accepted) fun ⟨⟨owned, _⟩, _⟩ => ?_
      exact foreign.elim (fun tenant => tenant owned.1) fun scope => scope owned.2
    · rename_i owned
      rw [not_or, not_not, not_not] at owned
      split
      · rename_i misplaced
        refine iff_of_false (fun accepted => nomatch accepted) fun ⟨_, ⟨placed, _⟩, _⟩ => ?_
        exact misplaced.elim (Nat.not_le_of_lt placed.1) (Nat.not_lt_of_le placed.2)
      · rename_i placed
        rw [not_or, Nat.not_le, Nat.not_lt] at placed
        rw [ih]
        constructor
        · rintro ⟨others, within, ordered, ended⟩
          refine ⟨⟨owned, others⟩, ⟨placed, fun later member => ?_⟩,
            ⟨fun later member => (within later member).1, ordered⟩, ended⟩
          exact ⟨Nat.lt_trans placed.1 (within later member).1, (within later member).2⟩
        · rintro ⟨⟨_, others⟩, ⟨_, within⟩, ⟨after, ordered⟩, ended⟩
          exact ⟨others, fun later member => ⟨after later member, (within later member).2⟩, ordered, ended⟩

theorem le_getLast {sequence : Sequence} {sequences : List Sequence} (increasing : sequences.Pairwise (· < ·))
    (member : sequence ∈ sequences) : sequence ≤ sequences.getLast?.getD first := by
  rcases List.eq_nil_or_concat sequences with rfl | ⟨_, last, rfl⟩
  · cases member
  · rw [List.concat_eq_append] at increasing member
    rw [List.concat_eq_append, List.getLast?_concat, Option.getD_some]
    rcases List.mem_append.mp member with earlier | final
    · exact Nat.le_of_lt ((List.pairwise_append.mp increasing).2.2 sequence earlier last (by simp))
    · exact Nat.le_of_eq (List.mem_singleton.mp final)

theorem Accepts.onward (accepts : Accepts config encodedLength cursor submitted response) :
    storedSequence cursor ≤ response.nextCursor.sequence ∧
      ∀ change ∈ response.changes, change.sequence ≤ response.nextCursor.sequence := by
  have within : ∀ change ∈ response.changes, change.sequence ≤ response.nextCursor.sequence := by
    intro change member
    rw [← accepts.reached]
    exact le_getLast accepts.increasing (List.mem_map_of_mem member)
  refine ⟨?_, within⟩
  cases changes : response.changes with
  | nil =>
    have reached := accepts.reached
    rw [changes] at reached
    exact Nat.le_of_eq reached
  | cons change _ =>
    have member : change ∈ response.changes := by simp [changes]
    exact Nat.le_of_lt (Nat.lt_of_lt_of_le (accepts.above change member) (within change member))

theorem validateResponse_eq_ok : validateResponse config encodedLength cursor response submitted = .ok outcome ↔
      Accepts config encodedLength cursor submitted response ∧ outcome = .of response := by
  simp only [validateResponse, bind_eq_ok_iff]
  constructor
  · rintro ⟨_, directive, _, protocol, bytes, encoded, _, limited, _, scope, _, timeline, _, onward, _, results,
      reached, changes, _, final, _, progresses, ended⟩
    obtain ⟨owned, placed, increasing, last⟩ := validateChanges_eq_ok.mp changes
    obtain ⟨distinct, answered⟩ := validateOperationResults_eq_ok.mp results
    obtain ⟨few, short⟩ := require_eq_ok.mp limited
    cases ended
    exact ⟨{
      directive := validateSyncDirective_eq_ok.mp directive
      protocol := require_eq_ok.mp protocol
      limited := ⟨few, bytes, short, encoded⟩
      scope := require_eq_ok.mp scope
      timeline := validateTimeline_eq_ok.mp timeline
      distinct
      answered
      owned
      above := fun change member => (placed change member).1
      increasing
      reached := last.trans (require_eq_ok.mp final).symm
      progresses := require_eq_ok.mp progresses }, rfl⟩
  · rintro ⟨accepts, rfl⟩
    obtain ⟨few, bytes, short, encoded⟩ := accepts.limited
    obtain ⟨onward, within⟩ := accepts.onward
    refine ⟨(), validateSyncDirective_eq_ok.mpr accepts.directive, (), require_eq_ok.mpr accepts.protocol,
      bytes, encoded, (), require_eq_ok.mpr ⟨few, short⟩, (), require_eq_ok.mpr accepts.scope,
      (), validateTimeline_eq_ok.mpr accepts.timeline, (), require_eq_ok.mpr onward,
      (), validateOperationResults_eq_ok.mpr ⟨accepts.distinct, accepts.answered⟩,
      response.nextCursor.sequence, validateChanges_eq_ok.mpr ?_, (), require_eq_ok.mpr rfl,
      (), require_eq_ok.mpr accepts.progresses, rfl⟩
    exact ⟨accepts.owned, fun change member => ⟨accepts.above change member, within change member⟩,
      accepts.increasing, accepts.reached⟩

/-- A store call that also notes what it was given. -/
def noting {State : Type} (reconcile : SyncResponse → State → State × Except StoreError Unit)
    (response : SyncResponse) (noted : State × List SyncResponse) :
    (State × List SyncResponse) × Except StoreError Unit :=
  (((reconcile response noted.1).1, noted.2 ++ [response]), (reconcile response noted.1).2)

/-- Whatever the server answers, the store is given exactly the responses that continue the stored
cursor and answer for the submitted operations; any other leaves everything as it was. -/
theorem reconcileExchange_hands_iff (config : ClientConfig)
    (encodedLength : SyncResponse → Except ClientError Nat)
    (reconcile : SyncResponse → State → State × Except StoreError Unit) (cursor : Option Cursor)
    (response : SyncResponse) (submitted : List OperationId) (state : State) :
    ((reconcileExchange config encodedLength (noting reconcile) cursor response submitted (state, [])).1.2 =
        [response] ↔ Accepts config encodedLength cursor submitted response) ∧
      (¬Accepts config encodedLength cursor submitted response →
        (reconcileExchange config encodedLength (noting reconcile) cursor response submitted (state, [])).1 =
          (state, []) ∧
        (reconcileExchange config encodedLength reconcile cursor response submitted state).1 = state) := by
  unfold reconcileExchange
  cases checked : validateResponse config encodedLength cursor response submitted with
  | error error =>
    have refused : ¬Accepts config encodedLength cursor submitted response := fun accepts => by
      rw [validateResponse_eq_ok.mpr ⟨accepts, rfl⟩] at checked
      cases checked
    exact ⟨iff_of_false (fun given => nomatch given) refused, fun _ => ⟨rfl, rfl⟩⟩
  | ok _ =>
    obtain ⟨accepts, _⟩ := validateResponse_eq_ok.mp checked
    refine ⟨iff_of_true ?_ accepts, fun refused => absurd accepts refused⟩
    dsimp only [noting]
    cases (reconcile response state).2 with
    | error _ => rfl
    | ok _ => rfl

def exampleConfig : ClientConfig where
  protocol := 1
  session :=
    { sessionId := ⟨1⟩, deviceId := ⟨1⟩, actorId := ⟨1⟩, tenantId := ⟨1⟩, scopeId := ⟨1⟩, partitions := [] }
  pushBatchBytes := 1000
  limits := { maxChanges := 10, maxResponseBytes := 1000 }
  maxAttempts := 3
  maxDelay := 1000
  maxExchangesPerSync := 10
  snapshotLimits := { maxEntities := 10, maxPayloadBytes := 1000 }

-- The store is given the two changes that follow the stored cursor, and nothing of them in another epoch.
example : (validateResponse exampleConfig (fun _ => .ok 0) (some (exampleCursor 1 0)) (exampleResponse 1 0 2) [] =
      .ok { acknowledged := 0, rejected := 0, conflicts := 0, changes := 2, hasMore := false }) ∧
    validateResponse exampleConfig (fun _ => .ok 0) (some (exampleCursor 1 0)) (exampleResponse 2 0 2) [] =
      .error (.authorityChanged ⟨1⟩ 1 2) := by
  decide

end Aequora.Client
