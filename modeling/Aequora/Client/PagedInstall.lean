import Aequora.Client.Exchange
import Aequora.Client.PageStaging

/-! Whole runs. Until the last page the client's entities and cursors stay as they were; then the
scope holds one capture. -/

namespace Aequora.Client

open Std Aequora.Base Aequora.Protocol Aequora.Store Aequora.Server Aequora.Authority InMemoryAuthoritativeStore BootstrapEvent BootstrapSetting Run AuthorityController BootstrapProgress

namespace BootstrapSetting
variable {setting : BootstrapSetting}

/-! ### Whole runs -/

theorem step_follows (run : BootstrapRun) (event : BootstrapEvent) :
    Follows run.store (setting.step run event).store := by
  cases event with
  | others action => exact ⟨[action], rfl⟩
  | interrupted =>
    simp only [step]
    split <;> exact .refl _
  | lost attempt =>
    simp only [step]
    split
    · exact serve_follows attempt run
    · exact .refl _
  | answered attempt =>
    by_cases running : run.installed = none
    · rw [step_answered_store running]
      exact serve_follows attempt run
    · simp only [step, if_neg running]
      exact .refl _

theorem Pending.fresh (unstaged : replica.stagedSnapshots[setting.scope]? = none) :
    setting.Pending store replica (setting.beginCall store replica) where
  entities := rfl
  cursors := rfl
  trusted := rfl
  snapshotId := rfl
  offset := by simp [BootstrapSetting.beginCall, resume, referenceClient, unstaged]
  cursor := by simp [BootstrapSetting.beginCall, resume, referenceClient, unstaged]
  staging staged found := by
    rw [show replica.stagedSnapshots[setting.scope]? = some staged from found] at unstaged
    cases unstaged

theorem Sound.final (reached : Follows .default store) (unstaged : replica.stagedSnapshots[setting.scope]? = none)
    (undisturbed : Permitted setting.step setting.Undisturbed (setting.beginCall store replica) events)
    (room : setting.Countable store (Run.final setting.step (setting.beginCall store replica) events).store) :
    setting.Sound store replica (Run.final setting.step (setting.beginCall store replica) events) := by
  induction events using List.reverseRecOn with
  | nil => exact .of_pending (.refl store) rfl (.fresh unstaged)
  | append_singleton _ event ih =>
    obtain ⟨earlier, now, -⟩ := permitted_append.mp undisturbed
    rw [final_append, final_cons, final_nil] at room ⊢
    have sound := ih earlier fun met since kept => room met since (kept.trans (step_follows _ event))
    exact sound.step reached event now room

/-! ### Progress -/

/-- The server admits the client's first request, under an authority that the client can follow, and a page
has room for an entity. -/
structure Serves (setting : BootstrapSetting) (replica : LocalState) : Prop where
  admits : ∀ attempt, setting.server.checkBootstrap (setting.environment attempt) setting.auth
    (setting.request (.resume none) attempt.requestId) = .ok ()
  authority : ∀ cursor ∈ replica.cursors[setting.scope]?, cursor.authorityId = AuthorityId.legacyUnbound ∨
    cursor.authorityId = setting.authority.authorityId
  epoch : ∀ cursor ∈ replica.cursors[setting.scope]?, cursor.authorityEpoch ≤ setting.authority.epoch
  counted : 0 < setting.maxEntities

theorem Serves.checked (serves : setting.Serves replica) (begun : progress.snapshotId = none → progress.offset = 0) :
    setting.server.checkBootstrap (setting.environment attempt) setting.auth
      (setting.request progress attempt.requestId) = .ok () := by
  have same : validateBootstrapRequest (setting.request progress attempt.requestId) setting.server.config.limits =
      validateBootstrapRequest (setting.request (.resume none) attempt.requestId) setting.server.config.limits := by
    have first : ¬((setting.request (.resume none) attempt.requestId).snapshotId = none ∧
        (setting.request (.resume none) attempt.requestId).offset ≠ 0) := fun offset => offset.2 rfl
    have resumed : ¬((setting.request progress attempt.requestId).snapshotId = none ∧
        (setting.request progress attempt.requestId).offset ≠ 0) := fun offset => offset.2 (begun offset.1)
    simp only [validateBootstrapRequest, if_neg first, if_neg resumed]
    rfl
  have admitted := serves.admits attempt
  rw [SyncServer.checkBootstrap] at admitted ⊢
  rwa [same]

theorem Serves.trusts (serves : setting.Serves replica) (pending : setting.Pending origin replica run)
    (snapshotId : SnapshotId) : validateTrust (setting.served attempt run met snapshotId) run.trusted = .ok () := by
  rw [pending.trusted]
  cases trusted : replica.cursors[setting.scope]? with
  | none => rfl
  | some cursor =>
    have identity : ¬(cursor.authorityId ≠ AuthorityId.legacyUnbound ∧
        (setting.served attempt run met snapshotId).cursor.authorityId ≠ cursor.authorityId) := by
      intro other
      obtain unbound | same := serves.authority cursor trusted
      · exact other.1 unbound
      · exact other.2 same.symm
    have epoch : ¬(setting.served attempt run met snapshotId).cursor.authorityEpoch < cursor.authorityEpoch :=
      Nat.not_lt_of_le (serves.epoch cursor trusted)
    simp only [validateTrust, if_neg identity, if_neg epoch]

theorem Pending.begun (pending : setting.Pending origin replica run) (none : run.progress.snapshotId = none) :
    run.progress.offset = 0 := by
  rw [pending.snapshotId] at none
  have unstaged : run.replica.stagedSnapshots[setting.scope]? = .none := by
    simpa [stagedId, referenceClient] using none
  rw [pending.offset, unstaged, Option.elim_none]

theorem Pending.resumed_offset (pending : setting.Pending origin replica run) :
    (setting.beginCall store run.replica).progress.offset = run.progress.offset :=
  pending.beginCall.offset.trans pending.offset.symm

theorem taken_offset (continues : setting.Continues origin run page met) (same : page.offset = run.progress.offset)
    (moving : ¬Stuck page) (unfinished : (setting.taken page run).installed = none) :
    run.progress.offset + 1 ≤ (setting.taken page run).progress.offset := by
  have more : page.hasMore = true := by
    cases flag : page.hasMore with
    | true => rfl
    | false => simp [taken, flag] at unfinished
  have some : page.entities ≠ [] := by
    intro empty
    refine moving ⟨more, empty, ?_⟩
    rw [continues.next, empty, List.length_nil, Nat.add_zero]
  have next : (setting.taken page run).progress.offset = page.offset + page.entities.length := continues.next
  rw [next, same]
  exact Nat.add_le_add_left (List.length_pos_of_ne_nil some) _

theorem step_unfinished (unfinished : (setting.step run event).installed = none) : run.installed = none := by
  by_cases running : run.installed = none
  · exact running
  · cases event with
    | others _ => exact unfinished
    | interrupted => simpa only [step, if_neg running] using unfinished
    | lost attempt => simpa only [step, if_neg running] using unfinished
    | answered _ => simpa only [step, if_neg running] using unfinished

/-- No event throws a call back, and an answer brings it on. -/
theorem step_offset (serves : setting.Serves replica) (sound : setting.Sound origin replica run) (undisturbed : setting.Undisturbed run event)
    (room : setting.Countable origin (setting.step run event).store)
    (fits : setting.Fitting origin (setting.step run event).store)
    (unfinished : (setting.step run event).installed = none) :
    run.progress.offset + (if event.delivers then 1 else 0) ≤ (setting.step run event).progress.offset := by
  have running := step_unfinished unfinished
  have pending := sound.pending running
  cases event with
  | others _ => exact Nat.le_refl _
  | interrupted =>
    simp only [step, if_pos running]
    exact Nat.le_of_eq pending.resumed_offset.symm
  | lost attempt =>
    simp only [step, if_pos running]
    exact Nat.le_refl _
  | answered attempt =>
    rw [step_answered_store running] at room fits
    obtain ⟨met, snapshotId, continues, ⟨passes, taken⟩ | ⟨refused, begun⟩⟩ :=
      step_answered running sound.follows pending undisturbed room (serves.checked pending.begun)
    · rw [taken] at unfinished ⊢
      have further := taken_offset continues rfl passes.1 unfinished
      split
      · exact further
      · exact Nat.le_of_succ_le further
    · rw [begun]
      have fenced : ¬(BootstrapEvent.answered attempt).delivers = true := by
        intro delivered
        have fence : attempt.around.fence = .ok () := by
          cases held : attempt.around.fence with
          | ok _ => rfl
          | error _ => simp [delivers, held, Except.isOk, Except.toBool] at delivered
        have staging := continues.staging
        have inside := staging.inside
        rw [continues.held] at inside
        exact refused ⟨served_advances inside (room met staging.since staging.kept) serves.counted
          (fits met staging.since staging.kept), serves.trusts pending snapshotId, fence⟩
      rw [if_neg fenced]
      exact Nat.le_of_eq pending.resumed_offset.symm

/-- A run that goes on has taken an entity for every answer. -/
theorem final_offset (reached : Follows .default store) (unstaged : replica.stagedSnapshots[setting.scope]? = none)
    (serves : setting.Serves replica)
    (undisturbed : Permitted setting.step setting.Undisturbed (setting.beginCall store replica) events)
    (room : setting.Countable store (final setting.step (setting.beginCall store replica) events).store)
    (fits : setting.Fitting store (final setting.step (setting.beginCall store replica) events).store)
    (unfinished : (final setting.step (setting.beginCall store replica) events).installed = none) :
    events.countP delivers ≤
      (final setting.step (setting.beginCall store replica) events).progress.offset := by
  induction events using List.reverseRecOn with
  | nil => exact Nat.zero_le _
  | append_singleton before event ih =>
    obtain ⟨earlier, now, -⟩ := permitted_append.mp undisturbed
    rw [final_append, final_cons, final_nil] at room fits unfinished ⊢
    have smaller : setting.Countable store (final setting.step (setting.beginCall store replica) before).store :=
      fun met since kept => room met since (kept.trans (step_follows _ event))
    have fitting : setting.Fitting store (final setting.step (setting.beginCall store replica) before).store :=
      fun met since kept => fits met since (kept.trans (step_follows _ event))
    have sound := Sound.final reached unstaged earlier smaller
    rw [List.countP_append, List.countP_singleton]
    calc before.countP delivers + (if event.delivers then 1 else 0)
      _ ≤ (final setting.step (setting.beginCall store replica) before).progress.offset +
          (if event.delivers then 1 else 0) :=
        Nat.add_le_add_right (ih earlier smaller fitting (step_unfinished unfinished)) _
      _ ≤ _ := step_offset serves sound now room fits unfinished

theorem Pending.offset_lt (pending : setting.Pending origin replica run) (started : 0 < run.progress.offset) :
    ∃ met, Follows origin met ∧ Follows met run.store ∧
      run.progress.offset < (met.state.scopeEntities setting.tenant setting.scope).length := by
  have offset := pending.offset
  cases found : run.replica.stagedSnapshots[setting.scope]? with
  | none =>
    rw [found, Option.elim_none] at offset
    omega
  | some staged =>
    obtain ⟨met, staging, unfinished⟩ := pending.staging staged found
    rw [found, Option.elim_some] at offset
    exact ⟨met, staging.since, staging.kept, offset ▸ unfinished⟩

end BootstrapSetting

/-- However calls break off and requests are repeated or lost, and whatever others commit meanwhile: until the
last page the client's entities and cursors are as they were; then the scope holds exactly the capture of one
moment of the server's store, each entity once, under its cursor, and other scopes are unchanged. As many
answers as the scope has entities are enough. -/
theorem paged_bootstrap_installs (setting : BootstrapSetting) {store : InMemoryAuthoritativeStore}
    {replica : LocalState} (reached : Follows .default store)
    (unstaged : replica.stagedSnapshots[setting.scope]? = none) (events : List BootstrapEvent)
    (undisturbed : Permitted setting.step setting.Undisturbed (setting.beginCall store replica) events)
    (room : setting.Countable store (Run.final setting.step (setting.beginCall store replica) events).store) :
    let final := Run.final setting.step (setting.beginCall store replica) events
    (final.installed = none →
      final.replica.entities = replica.entities ∧ final.replica.cursors = replica.cursors) ∧
    (∀ outcome, final.installed = some outcome → ∃ met, setting.Installed store replica final outcome met) ∧
    (setting.Serves replica → setting.Fitting store final.store → ∀ bound,
      (∀ met, Follows store met → Follows met final.store →
        (met.state.scopeEntities setting.tenant setting.scope).length ≤ bound) →
      max 1 bound ≤ events.countP delivers → ∃ outcome, final.installed = some outcome) := by
  intro final
  have sound : setting.Sound store replica final := .final reached unstaged undisturbed room
  refine ⟨fun running => ?_, sound.installed, fun serves fits bound small enough => ?_⟩
  · have pending := sound.pending running
    exact ⟨pending.entities, pending.cursors⟩
  · apply Option.ne_none_iff_exists'.mp
    intro running
    have far : events.countP delivers ≤ final.progress.offset :=
      final_offset reached unstaged serves undisturbed room fits running
    obtain ⟨met, since, kept, _⟩ := (sound.pending running).offset_lt (by omega)
    have most := small met since kept
    omega

/-! ### A run in which a call breaks off -/

namespace BootstrapSetting
variable {setting : BootstrapSetting}

theorem scopeEntities_length_le (reached : Follows .default first)
    (since : Follows first met) (kept : Follows met last) :
    (met.state.scopeEntities setting.tenant setting.scope).length ≤
      (last.state.scopeJournal (setting.tenant, setting.scope)).length := by
  obtain ⟨actions, rfl⟩ := reached.trans since
  have valid := journalled_of_run actions
  exact valid.scopeEntities_length_le.trans (kept.scopeJournal _).length_le

theorem fitting_of_journal (reached : Follows .default first)
    (small : ∀ change ∈ last.state.journal, change.payload.length ≤ setting.maxPayloadBytes) :
    setting.Fitting first last := by
  intro _ since kept _ held
  obtain ⟨actions, rfl⟩ := reached.trans since
  have valid := journalled_of_run actions
  obtain ⟨change, member, rfl⟩ := valid.scopeEntities_written held
  obtain ⟨later, rfl⟩ := kept
  exact small change ((run_extends _ later).journal.subset member)

end BootstrapSetting

/-- A client that takes one entity a page. -/
def exampleSetting : BootstrapSetting where
  server := exampleServer
  config := { exampleConfig with snapshotLimits := { maxEntities := 1, maxPayloadBytes := 1000 } }
  auth := exampleAuth
  authority := exampleState
  startup := .new exampleState .default

def exampleCreation (number : BitVec 128) : StoreAction :=
  .commitOperation (exampleServer.commitFor exampleAuth (exampleOperation number [1] []) ⟨1⟩ ⟨⟨1⟩, 1, ⟨1⟩, 1⟩
    ⟨number⟩ ⟨0, 0, ⟨1⟩⟩ none ⟨[1], .upsert⟩ 1)

def exampleOrigin : InMemoryAuthoritativeStore :=
  final step .default [exampleCreation 1, exampleCreation 2]

def exampleAttempt (number : BitVec 128) : BootstrapAttempt where
  requestId := ⟨number⟩
  snapshotId := ⟨number⟩
  serverTime := ⟨0, 0, ⟨1⟩⟩
  blocks := []
  around := exampleReferenceCall

def exampleEvents : List BootstrapEvent :=
  [.answered (exampleAttempt 1), .interrupted, .others (exampleCreation 3), .answered (exampleAttempt 2),
    .answered (exampleAttempt 3)]

theorem paged_bootstrap_installs_interrupted :
    ∃ outcome met, (final exampleSetting.step (exampleSetting.beginCall exampleOrigin .default)
        exampleEvents).installed = some outcome ∧
      exampleSetting.Installed exampleOrigin .default
        (final exampleSetting.step (exampleSetting.beginCall exampleOrigin .default) exampleEvents) outcome met := by
  have reached : Follows .default exampleOrigin := ⟨_, rfl⟩
  have undisturbed : Permitted exampleSetting.step exampleSetting.Undisturbed
      (exampleSetting.beginCall exampleOrigin .default) exampleEvents := by
    refine ⟨?_, trivial, ?_, ?_, ?_, trivial⟩
    · intro action listed
      cases listed
    · intro _ _ captures
      exact captures
    · intro action listed
      cases listed
    · intro _ listed
      cases listed
  have few : ((final exampleSetting.step (exampleSetting.beginCall exampleOrigin .default)
      exampleEvents).store.state.scopeJournal (exampleSetting.tenant, exampleSetting.scope)).length = 3 := by
    decide +kernel
  have small : ∀ change ∈ (final exampleSetting.step (exampleSetting.beginCall exampleOrigin .default)
      exampleEvents).store.state.journal, change.payload.length ≤ exampleSetting.maxPayloadBytes := by
    decide +kernel
  have atMost (met : InMemoryAuthoritativeStore) (since : Follows exampleOrigin met) (kept : Follows met
      (final exampleSetting.step (exampleSetting.beginCall exampleOrigin .default) exampleEvents).store) :
      (met.state.scopeEntities exampleSetting.tenant exampleSetting.scope).length ≤ 3 :=
    few ▸ scopeEntities_length_le reached since kept
  have serves : exampleSetting.Serves .default := by
    refine ⟨fun attempt => rfl, ?_, ?_, by decide⟩
    · intro cursor trusted
      cases trusted
    · intro _ trusted
      cases trusted
  obtain ⟨-, installed, finishes⟩ := paged_bootstrap_installs exampleSetting reached rfl exampleEvents undisturbed
    fun met since kept => (atMost met since kept).trans (by decide)
  obtain ⟨outcome, finished⟩ := finishes serves (fitting_of_journal reached small) 3 atMost
    (by decide)
  obtain ⟨met, holds⟩ := installed outcome finished
  exact ⟨outcome, met, finished, holds⟩

end Aequora.Client
