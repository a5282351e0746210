import Aequora.SyncModel.Ownership

/-! No blind replay across epochs. A client remembers which operations may have reached the
authority; releasing one for replay forgets that, and is safe only while it is neither recorded nor
carried by a live request. -/

namespace Aequora.SyncModel

open Std Aequora.Base Run Finset ClientModel

/-- The operation may take effect without being sent again: the ledger records it or a live
request carries it. -/
def Model.Crossed (model : Model) (operationId : ModelOperationId) : Prop :=
  operationId ∈ model.server.appliedOperations ∨
    ∃ request ∈ model.network.requests, request.Live model.server ∧
      ∃ operation ∈ request.operation, operation.id = operationId

instance (model : Model) (operationId : ModelOperationId) : Decidable (model.Crossed operationId) :=
  inferInstanceAs (Decidable (_ ∨ ∃ request ∈ model.network.requests, _ ∧ ∃ operation ∈ request.operation, _))

def ModelAction.replays? : ModelAction → Option (ClientId × ModelOperationId)
  | .resolveAmbiguous clientId operationId true => some (clientId, operationId)
  | _ => none

/-- An operation is only released for replay while it has not crossed to the authority. -/
def Model.ReplaysUncrossed (model : Model) (action : ModelAction) : Prop :=
  ∀ replayed ∈ action.replays?, ∀ client ∈ model.clients[replayed.1]?,
    replayed.2 ∈ client.ambiguousOldEpoch → ¬model.Crossed replayed.2

instance (model : Model) (action : ModelAction) : Decidable (model.ReplaysUncrossed action) :=
  inferInstanceAs (Decidable (∀ replayed ∈ action.replays?, ∀ client ∈ model.clients[replayed.1]?, _))

/-- Requests never run ahead of the authority's fence and epoch. -/
structure Model.RequestsBounded (model : Model) : Prop where
  fence : ∀ request ∈ model.network.requests, request.fenceToken ≤ model.server.fenceToken
  epoch : ∀ request ∈ model.network.requests, request.authorityEpoch ≤ model.server.authorityEpoch
  timeline : ∀ (clientId : ClientId) client, model.clients[clientId]? = some client →
    client.cursorEpoch ≤ model.server.authorityEpoch

theorem Effect.fence (effect : Effect model action next result) :
    next.server.fenceToken = model.server.fenceToken ∧
        next.server.authorityEpoch = model.server.authorityEpoch ∨
      model.server.fenceToken < next.server.fenceToken := by
  cases effect with
  | served _ _ _ answered =>
    exact .inl ⟨answered.sameAuthority.fenceToken, answered.sameAuthority.authorityEpoch⟩
  | promoted _ _ ended =>
    cases ended with
    | fenceExhausted => exact .inl ⟨rfl, rfl⟩
    | lossless => exact .inr (Nat.lt_succ_self _)
    | epochExhausted => exact .inr (Nat.lt_succ_self _)
    | dataLoss => exact .inr (Nat.lt_succ_self _)
  | _ => exact .inl ⟨rfl, rfl⟩

/-- An operation crosses only by being sent, which its client remembers. -/
theorem Effect.crossed (effect : Effect model action next result) (bounded : model.RequestsBounded) (crossed : next.Crossed operationId) :
    model.Crossed operationId ∨
      ∃ (clientId : ClientId) (client : ClientModel) (operation : ModelOperation),
        model.clients[clientId]? = some client ∧
        next.clients[clientId]? = some (client.markSent operationId) ∧
        operation ∈ client.outbox ∧ operation.id = operationId := by
  rcases crossed with recorded | ⟨request, member, live, operation, carried, chosen⟩
  · obtain ⟨outcome, entry⟩ := mem_iff_lookup.mp recorded
    rcases effect.ledger entry with ⟨earlier, -⟩ |
      ⟨request, member, operation, carried, chosen, live, -, -⟩
    · exact .inl (.inl (mem_iff_lookup.mpr ⟨outcome, earlier⟩))
    · exact .inl (.inr ⟨request, member, live, operation, carried, chosen⟩)
  · by_cases earlier : request ∈ model.network.requests
    · rcases effect.fence with ⟨fence, epoch⟩ | _
      · refine .inl (.inr ⟨request, earlier, ⟨?_, ?_⟩, operation, carried, chosen⟩)
        · rw [live.1, fence]
        · rw [live.2, epoch]
      · have := bounded.fence request earlier
        have := live.1
        omega
    · cases effect with
      | @sent clientId client front found head _ =>
        rcases List.mem_append.mp member with old | added
        · exact absurd old earlier
        · cases List.mem_singleton.mp added
          obtain rfl : front = operation := Option.some.inj carried
          subst chosen
          exact .inr ⟨clientId, client, front, found, by simp, List.mem_of_mem_head? head, rfl⟩
      | pulled _ =>
        rcases List.mem_append.mp member with old | added
        · exact absurd old earlier
        · cases List.mem_singleton.mp added
          cases carried
      | duplicated present =>
        rcases List.mem_append.mp member with old | added
        · exact absurd old earlier
        · rw [List.mem_singleton.mp added] at earlier
          exact absurd (List.mem_of_getElem? present) earlier
      | requestLost => exact absurd (List.mem_of_mem_eraseIdx member) earlier
      | served => exact absurd (List.mem_of_mem_eraseIdx member) earlier
      | _ => exact absurd member earlier

theorem Model.RequestsBounded.step (bounded : model.RequestsBounded)
    (effect : Effect model action next result) : next.RequestsBounded where
  fence request member := by
    have raised : model.server.fenceToken ≤ next.server.fenceToken := by
      rcases effect.fence with ⟨same, -⟩ | raised
      · exact same.ge
      · exact raised.le
    rcases effect.request member with earlier | ⟨client, operation, -, created, -⟩
    · exact (bounded.fence request earlier).trans raised
    · rw [created]
      exact raised
  epoch request member := by
    rcases effect.request member with earlier | ⟨client, _, found, created, -⟩
    · exact (bounded.epoch request earlier).trans effect.authorityEpoch_le
    · rw [created]
      exact (bounded.timeline request.client client found).trans effect.authorityEpoch_le
  timeline clientId after found := by
    obtain ⟨before, present, change⟩ := effect.clientChange found
    exact (change.cursorEpoch_le (bounded.timeline clientId before present)).trans
      effect.authorityEpoch_le

/-- Every pending operation that crossed is remembered as possibly sent. -/
structure Model.Remembered (model : Model) : Prop extends model.RequestsBounded where
  remembered : ∀ (clientId : ClientId) client, model.clients[clientId]? = some client →
    ∀ operation ∈ client.outbox, model.Crossed operation.id → operation.id ∈ client.possiblySent

theorem Model.Remembered.initial (clientCount : UInt8) : (Model.new clientCount).Remembered where
  fence request member := by simp [Model.new, NetworkModel.default] at member
  epoch request member := by simp [Model.new, NetworkModel.default] at member
  timeline clientId client found := by
    rw [new_clients found]
    exact le_rfl
  remembered clientId client found operation member := by
    rw [new_clients found] at member
    cases member

/-- A client forgets nothing about an operation that stays pending, unless it releases it; only a
snapshot moves it to another epoch. -/
theorem ClientChange.remembered (change : ClientChange model action clientId client after) (pending : operation ∈ after.outbox)
    (unreleased : ∀ operationId, action = .resolveAmbiguous clientId operationId true →
      operationId ∈ client.ambiguousOldEpoch → operation.id ≠ operationId) :
    (operation.id ∈ client.possiblySent → operation.id ∈ after.possiblySent) ∧
      (after = model.server.bootstrap client ∨ after.cursorEpoch = client.cursorEpoch ∧
        (operation.id ∈ client.ambiguousOldEpoch → operation.id ∈ after.ambiguousOldEpoch)) := by
  cases change with
  | sent => exact ⟨mem_insert_of_mem, .inr ⟨rfl, id⟩⟩
  | interrupted _ _ _ gap =>
    have same := applyChanges_sameIntent gap
    exact ⟨by rw [same.possiblySent]; exact id, .inr ⟨same.cursorEpoch, by rw [same.ambiguousOldEpoch]; exact id⟩⟩
  | @reconciled response _ _ _ _ complete =>
    have same := applyChanges_sameIntent complete
    rw [← same.possiblySent, ← same.ambiguousOldEpoch, reconcile_cursorEpoch]
    rw [reconcile_outbox] at pending
    have unsettled := (List.mem_filter.mp pending).2
    cases outcome : response.outcome with
    | none => exact ⟨id, .inr ⟨same.cursorEpoch, id⟩⟩
    | some settled =>
      have different : operation.id ≠ settled.1 := by
        intro chosen
        simp [outcome, chosen] at unsettled
      exact ⟨fun sent => mem_erase.mpr ⟨different, sent⟩,
        .inr ⟨same.cursorEpoch, fun held => mem_erase.mpr ⟨different, held⟩⟩⟩
  | rebootstrapped => exact ⟨id, .inl rfl⟩
  | @resolved operationId safeReplay chosen ambiguous =>
    have different : operation.id ≠ operationId := by
      cases safeReplay with
      | true => exact unreleased operationId chosen ambiguous
      | false => simpa using (List.mem_filter.mp pending).2
    exact ⟨fun sent => mem_erase.mpr ⟨different, sent⟩,
      .inr ⟨rfl, fun held => mem_erase.mpr ⟨different, held⟩⟩⟩
  | _ => exact ⟨id, .inr ⟨rfl, id⟩⟩

section Distinct
variable {model : Model} {action : ModelAction}
variable {mutations : List (ClientId × ModelOperation)}

theorem Model.Owned.crossed (owned : model.Owned mutations) (crossed : model.Crossed operationId) :
    ∃ clientId operation, (clientId, operation) ∈ mutations ∧ operation.id = operationId := by
  rcases crossed with recorded | ⟨request, member, -, operation, carried, chosen⟩
  · obtain ⟨outcome, entry⟩ := mem_iff_lookup.mp recorded
    obtain ⟨clientId, operation, mutated, chosen, -⟩ := owned.recorded operationId outcome entry
    exact ⟨clientId, operation, mutated, chosen⟩
  · exact ⟨request.client, operation, owned.requested request member operation carried, chosen⟩

section
variable (distinct : ((mutations ++ action.mutationOf result).map fun mutation => mutation.2.id).Nodup)
include distinct

theorem mutation_fresh (member : earlier ∈ mutations)
    (added : created ∈ action.mutationOf result) : earlier.2.id ≠ created.2.id := by
  rw [List.map_append, List.nodup_append] at distinct
  exact distinct.2.2 _ (List.mem_map_of_mem member) _ (List.mem_map_of_mem added)

theorem mutation_unique (leftMember : left ∈ mutations)
    (rightMember : right ∈ mutations) (same : left.2.id = right.2.id) : left = right :=
  List.inj_on_of_nodup_map distinct (List.mem_append_left _ leftMember)
    (List.mem_append_left _ rightMember) same

end

theorem Model.Remembered.step (memory : model.Remembered) (owned : model.Owned mutations)
    (distinct : ((mutations ++ action.mutationOf result).map fun mutation => mutation.2.id).Nodup)
    (effect : Effect model action next result) (uncrossed : model.ReplaysUncrossed action) :
    next.Remembered := by
  refine ⟨memory.toRequestsBounded.step effect, ?_⟩
  intro clientId _ found operation pending crossed
  obtain ⟨_, present, change⟩ := effect.clientChange found
  rcases effect.crossed memory.toRequestsBounded crossed with
    earlier | ⟨sender, client, front, senderFound, marked, member, same⟩
  · rcases effect.outbox found pending with ⟨client, clientFound, member⟩ | created
    · obtain rfl := Option.some.inj (clientFound.symm.trans present)
      refine (change.remembered pending ?_).1
        (memory.remembered clientId client present operation member earlier)
      intro _ chosen ambiguous same
      subst chosen same
      exact uncrossed _ rfl client present ambiguous earlier
    · -- The operation was only just created, so nothing that crossed has its identity.
      obtain ⟨owner, _, mutated, same⟩ := owned.crossed earlier
      exact absurd same (mutation_fresh distinct mutated created)
  · rcases effect.outbox found pending with ⟨pendingClient, clientFound, pendingBefore⟩ | created
    · have owner : (sender, front) = (clientId, operation) :=
        mutation_unique distinct (owned.pending sender client senderFound front member)
          (owned.pending clientId pendingClient clientFound operation pendingBefore) same
      obtain ⟨rfl, rfl⟩ := Prod.mk.inj owner
      obtain rfl := Option.some.inj (marked.symm.trans found)
      exact mem_insert_self _ _
    · exact absurd same
        (mutation_fresh distinct (owned.pending sender client senderFound front member) created)

/-- The operation cannot be executed beyond the epoch: every request for it is too old, and its
owner remembers having sent it and holds it back in every later epoch. -/
structure Model.HeldAfter (model : Model) (owner : ClientId) (operationId : ModelOperationId)
    (epoch : Nat) : Prop where
  stale : ∀ request ∈ model.network.requests, ∀ operation, request.operation = some operation →
    operation.id = operationId → request.authorityEpoch ≤ epoch
  pending : ∀ client, model.clients[owner]? = some client →
    ∀ operation ∈ client.outbox, operation.id = operationId →
      operationId ∈ client.possiblySent ∧
        (epoch < client.cursorEpoch → operationId ∈ client.ambiguousOldEpoch)

theorem Model.Remembered.heldAfter (memory : model.Remembered)
    (recorded : operationId ∈ model.server.appliedOperations) (owner : ClientId) :
    model.HeldAfter owner operationId model.server.authorityEpoch where
  stale request member _ _ _ := memory.epoch request member
  pending client found operation member chosen := by
    refine ⟨?_, fun ahead => absurd (memory.timeline owner client found) (Nat.not_le_of_lt ahead)⟩
    rw [← chosen] at recorded ⊢
    exact memory.remembered owner client found operation member (.inl recorded)

theorem Model.HeldAfter.step (held : model.HeldAfter owner original.id epoch) (owned : model.Owned mutations)
    (distinct : ((mutations ++ action.mutationOf result).map fun mutation => mutation.2.id).Nodup)
    (mutated : (owner, original) ∈ mutations) (effect : Effect model action next result)
    (unreleased : action ≠ .resolveAmbiguous owner original.id true ∨ next = model) :
    next.HeldAfter owner original.id epoch := by
  rcases unreleased with unreleased | rfl
  · refine ⟨?_, ?_⟩
    · intro request member operation carried chosen
      rcases effect.request member with earlier | ⟨client, sent, sender, created, front⟩
      · exact held.stale request earlier operation carried chosen
      · -- A client in a later epoch would have held the operation back.
        rw [created] at carried ⊢
        obtain ⟨-, head, clear⟩ := front operation carried
        have inside := List.mem_of_mem_head? head
        have owner_eq : (request.client, operation) = (owner, original) :=
          mutation_unique distinct (owned.pending request.client client sender operation inside)
            mutated chosen
        obtain ⟨rfl, rfl⟩ := Prod.mk.inj owner_eq
        exact Nat.le_of_not_lt fun ahead => clear ((held.pending client sender operation inside rfl).2 ahead)
    · intro _ found operation pending chosen
      obtain ⟨_, present, change⟩ := effect.clientChange found
      rcases effect.outbox found pending with ⟨client, clientFound, member⟩ | created
      · obtain rfl := Option.some.inj (clientFound.symm.trans present)
        obtain ⟨sent, ambiguous⟩ := held.pending client present operation member chosen
        rw [← chosen] at sent ambiguous ⊢
        obtain ⟨stillSent, rfl | ⟨epochSame, stillHeld⟩⟩ := change.remembered pending (by
          intro _ released _ same
          exact unreleased (by rw [released, ← same, chosen]))
        · exact ⟨stillSent sent, fun _ =>
            ServerModel.mem_bootstrap_ambiguous.mpr ⟨sent, operation, member, rfl⟩⟩
        · exact ⟨stillSent sent, fun ahead => stillHeld (ambiguous (epochSame ▸ ahead))⟩
      · exact absurd chosen.symm (mutation_fresh distinct mutated created)
  · exact held

end Distinct

theorem Effect.resolveAmbiguous
    (effect : Effect model (.resolveAmbiguous clientId operationId safeReplay) next result) :
    next = model ∧ result ≠ .ok () ∨ result = .ok () ∧
      ∃ client, model.clients[clientId]? = some client ∧ operationId ∈ client.ambiguousOldEpoch := by
  cases effect with
  | refused => exact .inl ⟨rfl, nofun⟩
  | resolved found ambiguous => exact .inr ⟨rfl, _, found, ambiguous⟩
  | @clientFlagged _ _ _ crashed flag => cases crashed <;> cases flag
  | @serverFlagged _ crashed flag => cases crashed <;> cases flag
  | @networkFlagged _ connected flag => cases connected <;> cases flag
  | promoted promotion => rcases promotion with impossible | ⟨_, impossible⟩ <;> cases impossible

theorem Effect.epoch_of_entry (effect : Effect model action next result) {operationId : ModelOperationId}
    (entry : next.server.appliedOperations[operationId]? = some outcome)
    (absent : model.server.appliedOperations[operationId]? ≠ some outcome) :
    next.server.authorityEpoch = model.server.authorityEpoch := by
  cases effect with
  | served _ _ _ answered => exact answered.sameAuthority.authorityEpoch
  | promoted _ _ ended =>
    cases ended with
    | dataLoss => exact absurd (ServerModel.truncate_ledger entry).1 absent
    | _ => rfl
  | _ => rfl

/-- The action enters the operation into the ledger in this epoch. -/
def Model.Executes (blake3 : List UInt8 → Vector UInt8 32) (model : Model) (action : ModelAction)
    (operationId : ModelOperationId) (epoch : Nat) : Prop :=
  model.server.authorityEpoch = epoch ∧ operationId ∉ model.server.appliedOperations ∧
    operationId ∈ (model.step blake3 action).server.appliedOperations

instance (blake3 : List UInt8 → Vector UInt8 32) (model : Model) (action : ModelAction)
    (operationId : ModelOperationId) (epoch : Nat) :
    Decidable (model.Executes blake3 action operationId epoch) :=
  inferInstanceAs (Decidable (_ ∧ _))

section Runs
theorem Model.Executes.request {model : Model} (executes : model.Executes blake3 action operationId epoch) :
    (model.step blake3 action).server.authorityEpoch = epoch ∧
      ∃ request ∈ model.network.requests, ∃ operation, request.operation = some operation ∧
        operation.id = operationId ∧ request.authorityEpoch = epoch := by
  obtain ⟨rfl, absent, recorded⟩ := executes
  have effect := model.applyUnchecked_effect blake3 action
  obtain ⟨outcome, entry⟩ := mem_iff_lookup.mp recorded
  rcases effect.ledger entry with ⟨earlier, -⟩ |
    ⟨request, member, operation, carried, chosen, live, -, -⟩
  · exact absurd (mem_iff_lookup.mpr ⟨outcome, earlier⟩) absent
  · refine ⟨?_, request, member, operation, carried, chosen, live.2⟩
    exact effect.epoch_of_entry entry fun earlier => absent (mem_iff_lookup.mpr ⟨outcome, earlier⟩)

/-- The mutations of a run stay distinct up to and including each of its steps. -/
theorem DistinctMutations.step (distinct : DistinctMutations blake3 clientCount actions)
    (split : actions = before ++ action :: after) :
    ((acceptedMutations blake3 clientCount before ++
      (final (Model.step blake3) (Model.new clientCount) before).mutations blake3 action).map
        fun mutation => mutation.2.id).Nodup := by
  have earlier : acceptedMutations blake3 clientCount (before ++ [action]) <+:
      acceptedMutations blake3 clientCount actions := by
    rw [split, List.append_cons before action after]
    exact acceptedMutations_append clientCount (before ++ [action]) after
  have nodup := List.Nodup.sublist (earlier.sublist.map fun mutation : ClientId × ModelOperation => mutation.2.id) distinct
  rwa [acceptedMutations, trace_snoc] at nodup

theorem DistinctMutations.of_append (distinct : DistinctMutations blake3 clientCount (before ++ after)) :
    DistinctMutations blake3 clientCount before :=
  List.Nodup.sublist ((acceptedMutations_append clientCount before after).sublist.map _) distinct

theorem Model.ReplaysUncrossed.unreleased {model : Model}
    (uncrossed : model.ReplaysUncrossed (.resolveAmbiguous owner operationId true))
    (recorded : operationId ∈ model.server.appliedOperations) :
    ¬model.Accepts blake3 (.resolveAmbiguous owner operationId true) := by
  intro accepted
  rcases (step_effect_of_accepts blake3 accepted).resolveAmbiguous with
    ⟨-, refused⟩ | ⟨-, client, found, ambiguous⟩
  · exact refused rfl
  · exact uncrossed _ rfl client found ambiguous (.inl recorded)

theorem Model.remembered_of_run (distinct : DistinctMutations blake3 clientCount actions)
    (uncrossed : Permitted (step blake3) ReplaysUncrossed (Model.new clientCount) actions) :
    (final (step blake3) (Model.new clientCount) actions).Remembered := by
  refine final_of_cut (.initial clientCount) fun before action after split memory => ?_
  exact memory.step (owned_of_run blake3 clientCount before) (distinct.step split)
    (applyUnchecked_effect blake3 _ action)
    (permitted_iff_cut.mp uncrossed before action after split)

/-- An operation held back stays held back until its owner releases it. -/
theorem Model.HeldAfter.run (held : (final (Model.step blake3) (Model.new clientCount) before).HeldAfter owner
      original.id epoch)
    (distinct : DistinctMutations blake3 clientCount (before ++ middle))
    (mutated : (owner, original) ∈ acceptedMutations blake3 clientCount before)
    (unreleased : ∀ first second,
      middle = first ++ .resolveAmbiguous owner original.id true :: second →
        ¬(final (Model.step blake3) (Model.new clientCount) (before ++ first)).Accepts blake3
          (.resolveAmbiguous owner original.id true)) :
    (final (Model.step blake3) (Model.new clientCount) (before ++ middle)).HeldAfter owner
      original.id epoch := by
  induction middle using List.reverseRecOn with
  | nil => simpa using held
  | append_singleton first action ih =>
    rw [← List.append_assoc] at distinct ⊢
    have earlier := ih distinct.of_append fun head tail cut =>
      unreleased head (tail ++ [action]) (by simp [cut])
    rw [final_append]
    refine earlier.step (Model.owned_of_run blake3 clientCount (before ++ first)) (distinct.step rfl)
      ((acceptedMutations_append clientCount before first).subset mutated)
      (Model.applyUnchecked_effect blake3 _ action) ?_
    by_cases released : action = .resolveAmbiguous owner original.id true
    · subst released
      rcases (Model.applyUnchecked_effect blake3 (final (Model.step blake3) (Model.new clientCount)
          (before ++ first)) (.resolveAmbiguous owner original.id true)).resolveAmbiguous with
        ⟨same, -⟩ | ⟨accepted, -⟩
      · exact .inr same
      · exact absurd accepted (unreleased first [] rfl)
    · exact .inl released

variable (blake3)

/-- While every operation released before the promotion was uncrossed, an operation that was
executed in one epoch, stayed in the ledger up to a data-loss promotion and is executed again in
a later epoch was released for replay by its own client after that promotion. -/
theorem Model.replay_released (clientCount : UInt8) (before kept middle : List ModelAction)
    (executing again : ModelAction) (newInstance : UInt8) (retainThrough : Nat)
    (operationId : ModelOperationId) (epoch later : Nat)
    (distinct : DistinctMutations blake3 clientCount (before ++ [executing] ++ kept ++
      [.promoteWithDataLoss newInstance retainThrough] ++ middle ++ [again]))
    (uncrossed : Permitted (Model.step blake3) Model.ReplaysUncrossed (Model.new clientCount)
      (before ++ [executing] ++ kept))
    (executed : (final (Model.step blake3) (Model.new clientCount) before).Executes blake3
      executing operationId epoch)
    (recorded : Throughout (Model.step blake3)
      (fun model => operationId ∈ model.server.appliedOperations)
      (final (Model.step blake3) (Model.new clientCount) (before ++ [executing])) kept)
    (replayed : (final (Model.step blake3) (Model.new clientCount) (before ++ [executing] ++ kept ++
      [.promoteWithDataLoss newInstance retainThrough] ++ middle)).Executes blake3
        again operationId later)
    (advanced : epoch < later) :
    ∃ owner operation, (owner, operation) ∈ acceptedMutations blake3 clientCount before ∧
      operation.id = operationId ∧ ∃ first second,
        middle = first ++ .resolveAmbiguous owner operationId true :: second ∧
        (final (Model.step blake3) (Model.new clientCount) (before ++ [executing] ++ kept ++
          [.promoteWithDataLoss newInstance retainThrough] ++ first)).Accepts blake3
            (.resolveAmbiguous owner operationId true) := by
  obtain ⟨sameEpoch, request, member, operation, carried, rfl, -⟩ := executed.request
  have mutated := (Model.owned_of_run blake3 clientCount before).requested request member operation carried
  refine ⟨request.client, operation, mutated, rfl, ?_⟩
  by_contra unreleased
  obtain ⟨uncrossedBefore, uncrossedKept⟩ := permitted_append.mp uncrossed
  have memory := Model.remembered_of_run distinct.of_append.of_append.of_append.of_append uncrossedBefore
  have executedHeld := memory.heldAfter recorded.head request.client
  have entered : (final (Model.step blake3) (Model.new clientCount)
      (before ++ [executing])).server.authorityEpoch = epoch := by
    rw [final_append]
    exact sameEpoch
  have mutatedExecuted := (acceptedMutations_append clientCount before [executing]).subset mutated
  -- While the operation is recorded no release is permitted, and the promotion is none.
  have keptHeld := executedHeld.run distinct.of_append.of_append.of_append mutatedExecuted (by
    intro first second cut
    rw [final_append]
    exact (permitted_iff_cut.mp uncrossedKept first _ second cut).unreleased
      (throughout_iff_cut.mp recorded first _ cut))
  have mutatedKept := (acceptedMutations_append clientCount _ kept).subset mutatedExecuted
  have lossHeld := keptHeld.run distinct.of_append.of_append mutatedKept (by
    intro first second cut
    cases first <;> simp at cut)
  have mutatedLoss := (acceptedMutations_append clientCount _
    [.promoteWithDataLoss newInstance retainThrough]).subset mutatedKept
  have finalHeld := lossHeld.run distinct.of_append mutatedLoss fun first second cut accepted =>
    unreleased ⟨first, second, cut, accepted⟩
  obtain ⟨-, repeated, inFlight, replay, carries, same, _⟩ := replayed.request
  have stale := finalHeld.stale repeated inFlight replay carries same
  omega

/-- A committed operation lost by a promotion is executed again once its client released it. -/
theorem Model.replay_released_after_loss :
    ∃ owner operation, (owner, operation) ∈ acceptedMutations (fun _ => Vector.replicate 32 0) 1
        [.localMutate ⟨0⟩ ⟨⟨0⟩, ⟨0⟩, ⟨0⟩, none, 7⟩, .sendOperation ⟨0⟩] ∧
      operation.id = ⟨0⟩ ∧ ∃ first second,
        [.rebootstrapClient ⟨0⟩, .completeAuthorityRecovery, .resolveAmbiguous ⟨0⟩ ⟨0⟩ true,
          .sendOperation ⟨0⟩] = first ++ ModelAction.resolveAmbiguous owner ⟨0⟩ true :: second ∧
        (final (step fun _ => Vector.replicate 32 0) (Model.new 1)
          ([.localMutate ⟨0⟩ ⟨⟨0⟩, ⟨0⟩, ⟨0⟩, none, 7⟩, .sendOperation ⟨0⟩] ++ [.deliverRequest 0] ++ [] ++
            [.promoteWithDataLoss 2 0] ++ first)).Accepts (fun _ => Vector.replicate 32 0)
              (.resolveAmbiguous owner ⟨0⟩ true) :=
  replay_released (fun _ => Vector.replicate 32 0) 1 _ [] _ (.deliverRequest 0)
    (.deliverRequest 0) 2 0 ⟨0⟩ 1 2 (by decide +kernel) (by decide +kernel) (by decide +kernel)
    (by decide +kernel) (by decide +kernel) (by decide)

/-- An operation released while its request is still in flight is executed in the first epoch,
dropped by the promotion and executed again in the second, with no release in between. -/
theorem Model.released_in_flight_replays_blindly : DistinctMutations (fun _ => Vector.replicate 32 0) 1
        [.localMutate ⟨0⟩ ⟨⟨0⟩, ⟨0⟩, ⟨0⟩, none, 7⟩, .sendOperation ⟨0⟩, .rebootstrapClient ⟨0⟩,
          .resolveAmbiguous ⟨0⟩ ⟨0⟩ true, .deliverRequest 0, .promoteWithDataLoss 2 0,
          .rebootstrapClient ⟨0⟩, .completeAuthorityRecovery, .sendOperation ⟨0⟩, .deliverRequest 0] ∧
      (final (step fun _ => Vector.replicate 32 0) (Model.new 1)
        [.localMutate ⟨0⟩ ⟨⟨0⟩, ⟨0⟩, ⟨0⟩, none, 7⟩, .sendOperation ⟨0⟩, .rebootstrapClient ⟨0⟩,
          .resolveAmbiguous ⟨0⟩ ⟨0⟩ true]).Executes (fun _ => Vector.replicate 32 0)
        (.deliverRequest 0) ⟨0⟩ 1 ∧
      (⟨0⟩ : ModelOperationId) ∉ (final (step fun _ => Vector.replicate 32 0) (Model.new 1)
        [.localMutate ⟨0⟩ ⟨⟨0⟩, ⟨0⟩, ⟨0⟩, none, 7⟩, .sendOperation ⟨0⟩, .rebootstrapClient ⟨0⟩,
          .resolveAmbiguous ⟨0⟩ ⟨0⟩ true, .deliverRequest 0,
          .promoteWithDataLoss 2 0]).server.appliedOperations ∧
      (final (step fun _ => Vector.replicate 32 0) (Model.new 1)
        [.localMutate ⟨0⟩ ⟨⟨0⟩, ⟨0⟩, ⟨0⟩, none, 7⟩, .sendOperation ⟨0⟩, .rebootstrapClient ⟨0⟩,
          .resolveAmbiguous ⟨0⟩ ⟨0⟩ true, .deliverRequest 0, .promoteWithDataLoss 2 0,
          .rebootstrapClient ⟨0⟩, .completeAuthorityRecovery, .sendOperation ⟨0⟩]).Executes
        (fun _ => Vector.replicate 32 0) (.deliverRequest 0) ⟨0⟩ 2 := by
  decide +kernel

end Runs

end Aequora.SyncModel
