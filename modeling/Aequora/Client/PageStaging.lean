import Aequora.Client.BootstrapRun

/-! What an answer does to a run: every page the server makes for the client continues what is
staged. -/

namespace Aequora.Client

open Std Aequora.Base Aequora.Protocol Aequora.Store Aequora.Server Aequora.Authority AuthoritativeState SyncServer InMemoryAuthoritativeStore

namespace BootstrapSetting
variable {setting : BootstrapSetting} {met : InMemoryAuthoritativeStore}
  {run : BootstrapRun}

/-! ### The client's part -/

section
variable (held : StagedSnapshot) (page : BootstrapResponse)

def extendStaged : StagedSnapshot where
  progress := { held.progress with nextOffset := page.nextOffset }
  entities := held.entities ++ page.entities

/-- The local store after a page that continues what is staged. -/
def stagePage (replica : LocalState) : LocalState :=
  if page.hasMore then
    { replica with
      stagedSnapshots := replica.stagedSnapshots.insert page.cursor.scope (extendStaged held page) }
  else
    { replica with
      stagedSnapshots := replica.stagedSnapshots.erase page.cursor.scope
      entities := (replica.entities.deleteScope page.cursor.scope).put page.cursor.scope
        (extendStaged held page).entities
      cursors := replica.cursors.insert page.cursor.scope page.cursor }

end

theorem stageReferenceSnapshot_continued (owned : page.cursor.scope = setting.scope)
    (continued : (setting.heldUnder replica page.snapshotId page.cursor).progress =
      { snapshotId := page.snapshotId, cursor := page.cursor, nextOffset := page.offset }) :
    stageReferenceSnapshot page replica =
      (stagePage (setting.heldUnder replica page.snapshotId page.cursor) page replica, .ok ()) := by
  unfold heldUnder at continued ⊢
  rw [← owned] at continued ⊢
  unfold stageReferenceSnapshot stagePage
  simp only [continued, ne_eq, not_true_eq_false, or_self, if_false]
  split
  · simp only [extendStaged, continued]
  · simp only [extendStaged]

/-- The page that the server makes of a snapshot's page for the running call. -/
def served (setting : BootstrapSetting) (attempt : BootstrapAttempt) (run : BootstrapRun)
    (met : InMemoryAuthoritativeStore) (snapshotId : SnapshotId) : BootstrapResponse :=
  respondPage (setting.environment attempt) (setting.request run.progress attempt.requestId)
    ((met.state.capture setting.tenant setting.scope snapshotId).pageFrom run.progress.offset
      setting.maxEntities setting.maxPayloadBytes)

/-- The page leaves the client where it is although there is more. -/
abbrev Stuck (page : BootstrapResponse) : Prop :=
  page.hasMore = true ∧ page.entities = [] ∧ page.nextOffset = page.offset

/-- Captures of the in-memory store are bound to no authority, so only a page without progress is refused. -/
theorem answerPage_eq (snapshotId : SnapshotId) :
    answerPage (setting.environment attempt) (setting.request run.progress attempt.requestId)
        (.ok ((met.state.capture setting.tenant setting.scope snapshotId).pageFrom run.progress.offset
          setting.maxEntities setting.maxPayloadBytes)) =
      if Stuck (setting.served attempt run met snapshotId) then .error .snapshotNoProgress
      else .ok (setting.served attempt run met snapshotId) := by
  have checked : checkPage (setting.environment attempt) (setting.request run.progress attempt.requestId)
      ((met.state.capture setting.tenant setting.scope snapshotId).pageFrom run.progress.offset
        setting.maxEntities setting.maxPayloadBytes) =
      if Stuck (setting.served attempt run met snapshotId) then .error .snapshotNoProgress else .ok () := by
    rw [checkPage, if_neg fun bound => bound.1 rfl, if_neg fun bound => bound.1 rfl, if_neg fun other => other rfl]
    rfl
  by_cases stuck : Stuck (setting.served attempt run met snapshotId)
  · rw [if_pos stuck] at checked ⊢
    simp only [answerPage, checked]
  · rw [if_neg stuck] at checked ⊢
    simp only [answerPage, checked]
    rfl

/-- The page is cut from the capture where the call stands. -/
theorem served_cut (snapshotId : SnapshotId)
    (inside : run.progress.offset ≤ (met.state.scopeEntities setting.tenant setting.scope).length)
    (room : (met.state.scopeEntities setting.tenant setting.scope).length ≤ u64Max) :
    ((met.state.capture setting.tenant setting.scope snapshotId).pageFrom run.progress.offset
      setting.maxEntities setting.maxPayloadBytes).Cut (met.state.capture setting.tenant setting.scope snapshotId)
        run.progress.offset setting.maxEntities setting.maxPayloadBytes := by
  have length := @capture_length met.state setting.tenant setting.scope snapshotId
  rw [← length] at inside room
  exact CapturedSnapshot.pageFrom_cut inside room _ _

variable {snapshotId : SnapshotId}

/-- A page that has room for one entity is not stuck. -/
theorem served_advances (inside : run.progress.offset ≤ (met.state.scopeEntities setting.tenant setting.scope).length)
    (room : (met.state.scopeEntities setting.tenant setting.scope).length ≤ u64Max)
    (counted : 0 < setting.maxEntities)
    (fits : ∀ entity ∈ met.state.scopeEntities setting.tenant setting.scope,
      entity.payload.length ≤ setting.maxPayloadBytes) :
    ¬Stuck (setting.served attempt run met snapshotId) := by
  intro stuck
  obtain ⟨more, empty, same⟩ := stuck
  have cut := served_cut snapshotId inside room
  have further := cut.more.mp more
  have still : ((met.state.capture setting.tenant setting.scope snapshotId).pageFrom run.progress.offset
      setting.maxEntities setting.maxPayloadBytes).nextOffset = run.progress.offset := same
  rw [still] at further
  exact cut.advances counted (fun entity listed => fits entity (mem_capture.mp listed)) further empty

theorem Pending.expected (pending : setting.Pending origin replica run) {cursor : Cursor} (continued : (setting.heldUnder run.replica snapshotId cursor).progress =
      { snapshotId, cursor, nextOffset }) :
    (∀ expected ∈ run.progress.snapshotId, expected = snapshotId) ∧
      ∀ expected ∈ run.progress.cursor, expected = cursor := by
  rw [pending.snapshotId, pending.cursor]
  cases found : run.replica.stagedSnapshots[setting.scope]? with
  | none => simp [stagedId, referenceClient, found]
  | some _ =>
    rw [heldUnder, found, Option.getD_some] at continued
    simp [stagedId, referenceClient, found, continued]

/-- Every page that the server makes for the client passes the client's checks. -/
theorem served_valid (pending : setting.Pending origin replica run)
    (inside : run.progress.offset ≤ (met.state.scopeEntities setting.tenant setting.scope).length)
    (room : (met.state.scopeEntities setting.tenant setting.scope).length ≤ u64Max)
    (continued : (setting.heldUnder run.replica snapshotId (setting.boundary met)).progress =
      { snapshotId, cursor := setting.boundary met, nextOffset := run.progress.offset }) :
    validateSnapshotPage setting.config run.progress (setting.served attempt run met snapshotId) = .ok () := by
  have cut := served_cut snapshotId inside room
  obtain ⟨identity, cursor⟩ := pending.expected continued
  rw [validateSnapshotPage, bind_eq_ok, require_eq_ok, require_eq_ok]
  refine ⟨⟨rfl, rfl, rfl, identity, cursor, rfl⟩, ?_, ?_⟩
  · exact Nat.le_trans cut.count (Nat.min_le_left _ _)
  · exact Nat.le_trans cut.bytes (Nat.min_le_left _ _)

theorem receive_refused
    (valid : validateSnapshotPage setting.config run.progress page = .ok ()) (moving : ¬Stuck page)
    (refused : (∃ error, validateTrust page run.trusted = .error error) ∨ ∃ error, around.fence = .error error) :
    setting.receive around page run = setting.beginCall run.store run.replica := by
  unfold receive
  cases trust : validateTrust page run.trusted with
  | error error => rfl
  | ok _ =>
    rw [trust] at refused
    obtain ⟨_, distrust⟩ | ⟨_, fenced⟩ := refused
    · cases distrust
    · unfold acceptPage
      simp only [valid]
      rw [if_neg moving]
      simp only [referenceClient, underFence, fenced]

/-- The run after a page was taken. -/
def taken (setting : BootstrapSetting) (page : BootstrapResponse) (run : BootstrapRun) : BootstrapRun :=
  { run with
    replica := stagePage (setting.heldUnder run.replica page.snapshotId page.cursor) page run.replica
    progress := run.progress.extend page
    installed := if page.hasMore then none else some (.of (run.progress.extend page) page) }

/-- A page that is let through is staged, and the last one is installed. -/
theorem receive_taken (valid : validateSnapshotPage setting.config run.progress page = .ok ())
    (trust : validateTrust page run.trusted = .ok ()) (fence : around.fence = .ok ()) (moving : ¬Stuck page)
    (owned : page.cursor.scope = setting.scope)
    (continued : (setting.heldUnder run.replica page.snapshotId page.cursor).progress =
      { snapshotId := page.snapshotId, cursor := page.cursor, nextOffset := page.offset }) :
    setting.receive around page run = setting.taken page run := by
  have staged := stageReferenceSnapshot_continued owned continued
  unfold receive acceptPage
  simp only [trust, valid]
  rw [if_neg moving]
  simp only [referenceClient, underFence, fence, staged]
  rfl

/-! ### One step -/

/-- A page that continues what is staged for a run that is not finished. -/
structure Continues (setting : BootstrapSetting) (origin : InMemoryAuthoritativeStore) (run : BootstrapRun)
    (page : BootstrapResponse) (met : InMemoryAuthoritativeStore) : Prop where
  staging : setting.Staging origin run.store (setting.heldUnder run.replica page.snapshotId page.cursor) met
  held : (setting.heldUnder run.replica page.snapshotId page.cursor).progress =
    { snapshotId := page.snapshotId, cursor := page.cursor, nextOffset := page.offset }
  owned : page.cursor.scope = setting.scope
  cut : page.entities <+: (met.state.capture setting.tenant setting.scope page.snapshotId).entities.drop page.offset
  next : page.nextOffset = page.offset + page.entities.length
  more : page.hasMore = true ↔ page.nextOffset < (met.state.scopeEntities setting.tenant setting.scope).length

section
variable (pending : setting.Pending origin replica run) (continues : setting.Continues origin run page met)
include continues

theorem Continues.entities :
    (extendStaged (setting.heldUnder run.replica page.snapshotId page.cursor) page).entities =
      (met.state.capture setting.tenant setting.scope page.snapshotId).entities.take page.nextOffset := by
  have before := continues.staging.entities
  rw [continues.held] at before
  rw [extendStaged, before, continues.next]
  exact take_append_page continues.cut

theorem Continues.cursor : page.cursor = setting.boundary met := by
  have before := continues.staging.cursor
  rwa [continues.held] at before

theorem Continues.extended
    (inside : page.nextOffset ≤ (met.state.scopeEntities setting.tenant setting.scope).length) :
    setting.Staging origin run.store
      (extendStaged (setting.heldUnder run.replica page.snapshotId page.cursor) page) met := by
  have entities := continues.entities
  obtain ⟨staging, held, -, -, -, -⟩ := continues
  have identity : (extendStaged (setting.heldUnder run.replica page.snapshotId page.cursor) page).progress =
      { snapshotId := page.snapshotId, cursor := page.cursor, nextOffset := page.nextOffset } := by
    rw [extendStaged, held]
  have stored := staging.stored
  have cursor := staging.cursor
  rw [held] at stored cursor
  refine ⟨staging.since, staging.kept, ?_, ?_, ?_, ?_⟩
  · rw [identity]
    exact stored
  · rw [identity]
    exact cursor
  · rw [identity]
    exact entities
  · rw [identity]
    exact inside

include pending

theorem Pending.stage (more : page.hasMore = true) :
    setting.Pending origin replica (setting.taken page run) := by
  have unfinished := continues.more.mp more
  have lookup : (run.replica.stagedSnapshots.insert page.cursor.scope
      (extendStaged (setting.heldUnder run.replica page.snapshotId page.cursor) page))[setting.scope]? =
        some (extendStaged (setting.heldUnder run.replica page.snapshotId page.cursor) page) := by
    rw [continues.owned]
    exact ExtTreeMap.getElem?_insert_self
  have progress : (extendStaged (setting.heldUnder run.replica page.snapshotId page.cursor) page).progress =
      { snapshotId := page.snapshotId, cursor := page.cursor, nextOffset := page.nextOffset } := by
    rw [extendStaged, continues.held]
  rw [taken, stagePage, if_pos more]
  refine ⟨pending.entities, pending.cursors, pending.trusted, ?_, ?_, ?_, ?_⟩
  · simp only [stagedId, referenceClient, lookup, Option.map_some, progress]
    rfl
  · simp only [lookup, Option.elim_some, progress]
    rfl
  · simp only [lookup, Option.map_some, progress]
    rfl
  · intro _ found
    cases lookup.symm.trans found
    refine ⟨met, continues.extended (Nat.le_of_lt unfinished), ?_⟩
    exact unfinished

theorem Pending.install (last : page.hasMore = false)
    (valid : met.state.Journalled) :
    setting.Installed origin replica (setting.taken page run) (.of (run.progress.extend page) page) met := by
  have whole : (extendStaged (setting.heldUnder run.replica page.snapshotId page.cursor) page).entities =
      (met.state.capture setting.tenant setting.scope page.snapshotId).entities := by
    rw [continues.entities]
    apply List.take_of_length_le
    rw [capture_length]
    apply Nat.le_of_not_lt
    rw [← continues.more, last]
    exact Bool.false_ne_true
  have distinct : ((met.state.capture setting.tenant setting.scope page.snapshotId).entities.map
      SnapshotEntity.entity).Nodup := valid.capture_nodup
  have part (scope : SyncScopeId) : ScopeTable.part ((run.replica.entities.deleteScope setting.scope).put
      setting.scope (met.state.capture setting.tenant setting.scope page.snapshotId).entities) scope =
        if setting.scope = scope then fun entity =>
          (met.state.capture setting.tenant setting.scope page.snapshotId).entities.find? fun captured =>
            captured.entity = entity
        else run.replica.entities.part scope := by
    rw [ScopeTable.part_put, ScopeTable.part_deleteScope]
    split
    · funext entity
      rw [overwrite_of_nodup distinct]
      exact Option.or_none
    · rfl
  rw [taken, stagePage, if_neg (Bool.eq_false_iff.mp last), continues.owned, whole]
  refine ⟨continues.staging.since, continues.staging.kept, distinct, ?_, ?_, continues.cursor, ?_⟩
  · intro entity
    exact (congrFun (part setting.scope) entity).trans (congrFun (if_pos rfl) entity)
  · rw [← continues.cursor]
    exact ExtTreeMap.getElem?_insert_self
  · intro other different
    rw [← pending.cursors, ← pending.entities]
    refine ⟨?_, fun entity => ?_⟩
    · exact (lookup_insert ..).trans (if_neg different.symm)
    · exact (congrFun (part other) entity).trans (congrFun (if_neg different.symm) entity)

end

theorem served_continues
    (staging : setting.Staging origin store (setting.heldUnder run.replica snapshotId (setting.boundary met)) met)
    (held : (setting.heldUnder run.replica snapshotId (setting.boundary met)).progress =
      { snapshotId, cursor := setting.boundary met, nextOffset := run.progress.offset })
    (room : (met.state.scopeEntities setting.tenant setting.scope).length ≤ u64Max) :
    setting.Continues origin { run with store } (setting.served attempt run met snapshotId) met := by
  have inside := staging.inside
  rw [held] at inside
  have cut := served_cut snapshotId inside room
  have more := cut.more
  rw [capture_length] at more
  exact ⟨staging, held, rfl, cut.taken, cut.next, more⟩

/-- An answer is taken when it brings the call on, its authority is trusted and the lease holds; otherwise
the call ends and another one begins. -/
def Passes (run : BootstrapRun) (attempt : BootstrapAttempt) (page : BootstrapResponse) : Prop :=
  ¬Stuck page ∧ validateTrust page run.trusted = .ok () ∧ attempt.around.fence = .ok ()

theorem step_answered (running : run.installed = none) (follows : Follows origin run.store)
    (pending : setting.Pending origin replica run) (unmixed : setting.Unmixed attempt run)
    (room : setting.Countable origin (setting.serve attempt run).left)
    (checked : setting.server.checkBootstrap (setting.environment attempt) setting.auth
      (setting.request run.progress attempt.requestId) = .ok ()) :
    ∃ met snapshotId, setting.Continues origin { run with store := (setting.serve attempt run).left }
        (setting.served attempt run met snapshotId) met ∧
      (Passes run attempt (setting.served attempt run met snapshotId) ∧ setting.step run (.answered attempt) =
          setting.taken (setting.served attempt run met snapshotId)
            { run with store := (setting.serve attempt run).left } ∨
        ¬Passes run attempt (setting.served attempt run met snapshotId) ∧ setting.step run (.answered attempt) =
          setting.beginCall (setting.serve attempt run).left run.replica) := by
  obtain ⟨met, snapshotId, staging, held, result⟩ := serve_answers follows pending unmixed checked
  have inside := staging.inside
  rw [held] at inside
  have small := room met staging.since staging.kept
  have valid : validateSnapshotPage setting.config run.progress (setting.served attempt run met snapshotId) = .ok () :=
    served_valid pending inside small held
  refine ⟨met, snapshotId, served_continues staging held small, ?_⟩
  rw [answerPage_eq] at result
  by_cases stuck : Stuck (setting.served attempt run met snapshotId)
  · rw [if_pos stuck] at result
    refine .inr ⟨fun passes => passes.1 stuck, ?_⟩
    simp only [step, if_pos running, result]
  · rw [if_neg stuck] at result
    simp only [step, if_pos running, result]
    by_cases passes : Passes run attempt (setting.served attempt run met snapshotId)
    · exact .inl ⟨passes, receive_taken valid passes.2.1 passes.2.2 stuck rfl held⟩
    · refine .inr ⟨passes, receive_refused valid stuck ?_⟩
      cases trust : validateTrust (setting.served attempt run met snapshotId) run.trusted with
      | error error => exact .inl ⟨error, rfl⟩
      | ok _ =>
        cases fence : attempt.around.fence with
        | error error => exact .inr ⟨error, rfl⟩
        | ok _ => exact absurd ⟨stuck, trust, fence⟩ passes

theorem receive_store (around : ReferenceSurroundings) (page : BootstrapResponse) (run : BootstrapRun) :
    (setting.receive around page run).store = run.store := by
  unfold receive
  split
  · rfl
  · split <;> rfl

theorem step_answered_store (running : run.installed = none) :
    (setting.step run (.answered attempt)).store = (setting.serve attempt run).left := by
  simp only [step, if_pos running]
  split
  · rfl
  · exact receive_store ..

theorem Sound.of_pending (follows : Follows origin run.store) (running : run.installed = none)
    (pending : setting.Pending origin replica run) : setting.Sound origin replica run where
  follows
  pending _ := pending
  installed outcome finished := by
    rw [running] at finished
    cases finished

theorem Sound.of_taken (follows : Follows origin run.store) (pending : setting.Pending origin replica run)
    (continues : setting.Continues origin run page met) (valid : met.state.Journalled) :
    setting.Sound origin replica (setting.taken page run) := by
  cases more : page.hasMore with
  | true =>
    refine .of_pending follows ?_ (pending.stage continues more)
    simp only [taken, more, if_true]
  | false =>
    have finished : (setting.taken page run).installed = some (.of (run.progress.extend page) page) := by
      simp only [taken, more, Bool.false_eq_true, if_false]
    refine ⟨follows, fun running => ?_, fun outcome installed => ?_⟩
    · rw [finished] at running
      cases running
    · cases finished.symm.trans installed
      exact ⟨met, pending.install continues more valid⟩

theorem Sound.step (reached : Follows .default origin) (sound : setting.Sound origin replica run)
    (event : BootstrapEvent) (undisturbed : setting.Undisturbed run event)
    (room : setting.Countable origin (setting.step run event).store) :
    setting.Sound origin replica (setting.step run event) := by
  cases event with
  | others action =>
    have follows : Follows run.store (run.store.step action) := ⟨[action], rfl⟩
    refine ⟨sound.follows.trans follows, fun running => ?_, fun outcome finished => ?_⟩
    · refine (sound.pending running).moved follows fun snapshotId mine => ?_
      exact step_snapshot_kept (undisturbed snapshotId mine)
    · obtain ⟨met, installed⟩ := sound.installed outcome finished
      exact ⟨met, { installed with kept := installed.kept.trans follows }⟩
  | interrupted =>
    by_cases running : run.installed = none
    · simp only [BootstrapSetting.step, if_pos running]
      exact .of_pending sound.follows rfl (sound.pending running).beginCall
    · simpa only [BootstrapSetting.step, if_neg running] using sound
  | lost attempt =>
    by_cases running : run.installed = none
    · have moves : Follows run.store (setting.serve attempt run).left := serve_follows attempt run
      have keeps := serve_keeps (sound.pending running) undisturbed
      simp only [BootstrapSetting.step, if_pos running]
      exact .of_pending (sound.follows.trans moves) running ((sound.pending running).moved moves keeps)
    · simpa only [BootstrapSetting.step, if_neg running] using sound
  | answered attempt =>
    by_cases running : run.installed = none
    · have pending := sound.pending running
      have moves : Follows run.store (setting.serve attempt run).left := serve_follows attempt run
      have moved := pending.moved moves (serve_keeps pending undisturbed)
      have follows := sound.follows.trans moves
      rw [step_answered_store running] at room
      cases checked : setting.server.checkBootstrap (setting.environment attempt) setting.auth
          (setting.request run.progress attempt.requestId) with
      | error _ =>
        simp only [BootstrapSetting.step, if_pos running, serve_refused checked]
        exact .of_pending sound.follows rfl pending.beginCall
      | ok _ =>
        obtain ⟨_, _, continues, taken | refused⟩ :=
          step_answered running sound.follows pending undisturbed room checked
        · obtain ⟨actions, since⟩ := reached.trans continues.staging.since
          rw [taken.2]
          refine .of_taken follows moved continues ?_
          rw [since]
          exact journalled_of_run actions
        · rw [refused.2]
          exact .of_pending follows rfl moved.beginCall
    · simpa only [BootstrapSetting.step, if_neg running] using sound

end BootstrapSetting

end Aequora.Client
