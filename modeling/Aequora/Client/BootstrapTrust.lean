import Aequora.Client.Bootstrap
import Aequora.Client.Exchange

/-! What a bootstrap may do to the trust of a client. With requests the installed cursor has passed
the check against the one held before; from a stream it has only to be the same on all pages. -/

namespace Aequora.Client

open Std Aequora.Base Aequora.Protocol Aequora.Store AuthorityId

/-- A cursor of the same authority, in no earlier epoch. -/
def Upholds (trusted cursor : Cursor) : Prop :=
  cursor.authorityId = trusted.authorityId ∧ trusted.authorityEpoch ≤ cursor.authorityEpoch

/-- The snapshot that was begun is not of another cursor. -/
def Pinned (progress : BootstrapProgress) (cursor : Cursor) : Prop := ∀ begun ∈ progress.cursor, begun = cursor

section Store
variable (store : ClientStore State Surroundings)

/-- The call has installed the cursor of the page in its scope if it was the last page and accepted, and
has moved no cursor otherwise. -/
def StagesCursor (page : BootstrapResponse) (before : State) (call : State × Except StoreError Unit) : Prop :=
  ∀ scope, store.loadCursor scope call.1 =
    if call.2 = .ok () ∧ page.hasMore = false ∧ page.cursor.scope = scope then some page.cursor
    else store.loadCursor scope before

/-- The last page of a snapshot replaces the cursor of its scope, and no other page does. -/
def InstallsLast : Prop :=
  ∀ around page state, StagesCursor store page state (store.stageSnapshotFenced around page state)

/-- Every scope has the cursor it had, or one that upholds the trusted one. -/
def KeepsTrust (trusted : Cursor) (before after : State) : Prop :=
  ∀ scope, store.loadCursor scope after = store.loadCursor scope before ∨
    ∃ cursor, store.loadCursor scope after = some cursor ∧ Upholds trusted cursor

/-- The call has installed the cursor that it reports, one of those admitted, or none at all. -/
inductive Concluded (scope : SyncScopeId) (admits : Cursor → Prop) (before : State) :
    State × Option (Except ClientError BootstrapOutcome) → Prop where
  | installed {outcome : BootstrapOutcome} (admitted : admits outcome.cursor)
      (cursors : ∀ other, store.loadCursor other after =
        if scope = other then some outcome.cursor else store.loadCursor other before) :
      Concluded scope admits before (after, some (.ok outcome))
  | failed {error : ClientError}
      (cursors : ∀ other, store.loadCursor other after = store.loadCursor other before) :
      Concluded scope admits before (after, some (.error error))
  | waiting
      (cursors : ∀ other, store.loadCursor other after = store.loadCursor other before) :
      Concluded scope admits before (after, none)

variable {store}

theorem StagesCursor.refused (error : StoreError) : StagesCursor store page before (before, .error error) :=
  fun _ => (if_neg fun accepted => nomatch accepted.1).symm

theorem Concluded.preceded (concluded : Concluded store scope admits middle ended)
    (same : ∀ other, store.loadCursor other middle = store.loadCursor other before)
    (weaken : ∀ cursor, admits cursor → weaker cursor) : Concluded store scope weaker before ended := by
  cases concluded with
  | installed admitted cursors =>
    exact .installed (weaken _ admitted) fun other => by rw [cursors, same]
  | failed cursors => exact .failed fun other => (cursors other).trans (same other)
  | waiting cursors => exact .waiting fun other => (cursors other).trans (same other)

theorem Concluded.admitted (concluded : Concluded store scope admits before ended)
    (reported : ended.2 = some (.ok outcome)) : admits outcome.cursor := by
  cases concluded with
  | installed admitted _ =>
    cases reported
    exact admitted
  | failed _ => cases reported
  | waiting _ => cases reported

theorem Concluded.keepsTrust_iff (concluded : Concluded store scope admits before ended)
    (held : store.loadCursor scope before = some trusted) :
    KeepsTrust store trusted before ended.1 ↔
      ∀ outcome, ended.2 = some (.ok outcome) → Upholds trusted outcome.cursor := by
  cases concluded with
  | failed cursors => exact iff_of_true (fun other => .inl (cursors other)) (by rintro _ ⟨⟩)
  | waiting cursors => exact iff_of_true (fun other => .inl (cursors other)) (by rintro _ ⟨⟩)
  | installed _ cursors =>
    have installed := (cursors scope).trans (if_pos rfl)
    constructor
    · rintro kept _ ⟨⟩
      rcases kept scope with same | ⟨_, stored, upheld⟩
      · rw [Option.some.inj (installed.symm.trans (same.trans held))]
        exact ⟨rfl, Nat.le_refl _⟩
      · rwa [Option.some.inj (installed.symm.trans stored)]
    · intro upheld other
      by_cases here : scope = other
      · exact .inr ⟨_, (cursors other).trans (if_pos here), upheld _ rfl⟩
      · exact .inl ((cursors other).trans (if_neg here))

end Store

section Engine
variable {State Surroundings : Type} {delivery : Delivery Surroundings}

theorem validateSnapshotPage_eq_ok (valid : validateSnapshotPage config progress delivery.page = .ok ()) :
    delivery.page.cursor.scope = config.session.scopeId ∧ Pinned progress delivery.page.cursor := by
  rw [validateSnapshotPage, bind_eq_ok, require_eq_ok] at valid
  obtain ⟨⟨_, scope, _, _, cursor, _⟩, _⟩ := valid
  exact ⟨scope, cursor⟩

theorem acceptPage_error (installs : InstallsLast store)
    (refused : acceptPage config store progress delivery state = (next, .error error)) (scope : SyncScopeId) :
    store.loadCursor scope next = store.loadCursor scope state := by
  unfold acceptPage at refused
  split at refused
  · cases refused
    rfl
  · split at refused
    · cases refused
      rfl
    · split at refused
      · rename_i staged
        cases refused
        have cursor := installs delivery.around delivery.page state scope
        rwa [staged, if_neg fun accepted => nomatch accepted.1] at cursor
      · cases refused

/-- A page that is accepted continues the snapshot, and the last one installs its cursor. -/
theorem acceptPage_ok (installs : InstallsLast store)
    (accepted : acceptPage config store progress delivery state = (next, .ok extended)) :
    extended = progress.extend delivery.page ∧ Pinned progress delivery.page.cursor ∧
      (delivery.page.hasMore = true → ∀ scope, store.loadCursor scope next = store.loadCursor scope state) ∧
      (delivery.page.hasMore = false → ∀ scope, store.loadCursor scope next =
        if config.session.scopeId = scope then some delivery.page.cursor
        else store.loadCursor scope state) := by
  unfold acceptPage at accepted
  split at accepted
  · cases accepted
  · rename_i valid
    obtain ⟨owned, continued⟩ := validateSnapshotPage_eq_ok valid
    split at accepted
    · cases accepted
    · split at accepted
      · cases accepted
      · rename_i staged
        cases accepted
        have cursor := installs delivery.around delivery.page state
        rw [staged] at cursor
        refine ⟨rfl, continued, fun more scope => ?_, fun last scope => ?_⟩
        · simpa [more] using cursor scope
        · simpa [last, owned] using cursor scope

theorem validateTrust_eq_ok (valid : validateTrust page trusted = .ok ()) :
    ∀ held ∈ trusted, held.authorityId ≠ legacyUnbound → Upholds held page.cursor := by
  rintro _ ⟨⟩ bound
  unfold validateTrust at valid
  dsimp only at valid
  split at valid
  · cases valid
  · rename_i known
    split at valid
    · cases valid
    · rename_i onward
      exact ⟨not_not.mp fun other => known ⟨bound, other⟩, Nat.le_of_not_lt onward⟩

/-- With requests, only a cursor that upholds the one held before is installed. -/
theorem bootstrapPages_concluded (installs : InstallsLast store) (trusted : Option Cursor)
    (answers : List (Except TransportError (Delivery Surroundings))) (left attempt : Nat) :
    Concluded store config.session.scopeId
      (fun cursor => ∀ held ∈ trusted, held.authorityId ≠ legacyUnbound → Upholds held cursor) state
      (bootstrapPages config store trusted left attempt progress state answers) := by
  induction answers generalizing left attempt progress state with
  | nil =>
    cases left with
    | zero => exact .failed fun _ => rfl
    | succ left => exact .waiting fun _ => rfl
  | cons answer _ ih =>
    cases left with
    | zero => exact .failed fun _ => rfl
    | succ left =>
      cases answer with
      | error _ =>
        unfold bootstrapPages
        split
        · exact ih (left + 1) (attempt + 1)
        · exact .failed fun _ => rfl
      | ok _ =>
        unfold bootstrapPages
        split
        · exact .failed fun _ => rfl
        · rename_i checked
          split
          · rename_i refused
            exact .failed (acceptPage_error installs refused)
          · rename_i accepted
            obtain ⟨_, _, same, installed⟩ := acceptPage_ok installs accepted
            split
            · rename_i more
              exact (ih left 0).preceded (same more) fun _ => id
            · rename_i last
              exact .installed (validateTrust_eq_ok checked) (installed (Bool.eq_false_iff.mpr last))

theorem bootstrap_concluded (installs : InstallsLast store) (admission : Except ClientError Unit)
    (answers : List (Except TransportError (Delivery Surroundings))) :
    Concluded store config.session.scopeId
      (fun cursor => ∀ held ∈ store.loadCursor config.session.scopeId state,
        held.authorityId ≠ legacyUnbound → Upholds held cursor) state
      (bootstrap config store admission answers state) := by
  cases admission with
  | error _ => exact .failed fun _ => rfl
  | ok _ => exact bootstrapPages_concluded installs _ answers _ _

theorem Pinned.of_extend (begun : Pinned progress delivery.page.cursor)
    (pinned : Pinned (progress.extend delivery.page) cursor) : Pinned progress cursor := by
  have same : delivery.page.cursor = cursor := pinned _ rfl
  exact same ▸ begun

/-- What a stream has done when it is left: what a call has that ends there, and nothing to any
cursor when the call goes on with another stream. -/
inductive StreamLeft (store : ClientStore State Surroundings) (scope : SyncScopeId) (progress : BootstrapProgress)
    (before : State) : State × StreamEnd → Prop where
  | waiting (concluded : Concluded store scope (Pinned progress) before (after, none)) :
      StreamLeft store scope progress before (after, .waiting)
  | finished {result : Except ClientError BootstrapOutcome}
      (concluded : Concluded store scope (Pinned progress) before (after, some result)) :
      StreamLeft store scope progress before (after, .finished result)
  | reopened {attempt : Nat} {later : BootstrapProgress}
      (cursors : ∀ other, store.loadCursor other after = store.loadCursor other before)
      (pinned : ∀ cursor, Pinned later cursor → Pinned progress cursor) :
      StreamLeft store scope progress before (after, .reopen attempt later)

theorem StreamLeft.preceded (left : StreamLeft store scope later middle ended)
    (same : ∀ other, store.loadCursor other middle = store.loadCursor other before)
    (pinned : ∀ cursor, Pinned later cursor → Pinned progress cursor) :
    StreamLeft store scope progress before ended := by
  cases left with
  | waiting concluded => exact .waiting (concluded.preceded same pinned)
  | finished concluded => exact .finished (concluded.preceded same pinned)
  | reopened cursors continued =>
    exact .reopened (fun other => (cursors other).trans (same other)) fun cursor => pinned cursor ∘ continued cursor

theorem readStream_left (installs : InstallsLast store) (events : List (StreamEvent Surroundings)) (attempt : Nat) :
    StreamLeft store config.session.scopeId progress state
      (readStream config store attempt progress state events) := by
  induction events generalizing attempt progress state with
  | nil => exact .waiting (.waiting fun _ => rfl)
  | cons event _ ih =>
    cases event with
    | ended => exact .finished (.failed fun _ => rfl)
    | failed _ =>
      unfold readStream
      split
      · exact .reopened (fun _ => rfl) fun _ => id
      · exact .finished (.failed fun _ => rfl)
    | page _ =>
      unfold readStream
      split
      · rename_i refused
        exact .finished (.failed (acceptPage_error installs refused))
      · rename_i accepted
        obtain ⟨rfl, begun, same, installed⟩ := acceptPage_ok installs accepted
        split
        · rename_i last
          exact .finished (.installed begun (installed last))
        · rename_i more
          have unmoved := same (Bool.eq_true_of_not_eq_false more)
          split
          · exact .finished (.failed unmoved)
          · exact (ih 0).preceded unmoved fun _ => begun.of_extend

theorem bootstrapStreams_concluded (installs : InstallsLast store)
    (openings : List (Except TransportError (List (StreamEvent Surroundings)))) (attempt : Nat) :
    Concluded store config.session.scopeId (Pinned progress) state
      (bootstrapStreams config store attempt progress state openings) := by
  induction openings generalizing attempt progress state with
  | nil =>
    unfold bootstrapStreams
    split
    · exact .waiting fun _ => rfl
    · exact .failed fun _ => rfl
  | cons opening _ ih =>
    unfold bootstrapStreams
    split
    · cases opening with
      | error _ =>
        dsimp only
        split
        · exact ih (attempt + 1)
        · exact .failed fun _ => rfl
      | ok events =>
        have left : StreamLeft store config.session.scopeId progress state
          (readStream config store attempt progress state events) := readStream_left installs events attempt
        dsimp only
        generalize readStream config store attempt progress state events = ended at left
        cases left with
        | waiting concluded => exact concluded
        | finished concluded => exact concluded
        | reopened cursors pinned => exact (ih _).preceded cursors pinned
    · exact .failed fun _ => rfl

theorem bootstrapStreaming_concluded (installs : InstallsLast store) (admission : Except ClientError Unit)
    (openings : List (Except TransportError (List (StreamEvent Surroundings)))) :
    Concluded store config.session.scopeId
      (Pinned (.resume (store.snapshotProgress config.session.scopeId state))) state
      (bootstrapStreaming config store admission openings state) := by
  cases admission with
  | error _ => exact .failed fun _ => rfl
  | ok _ => exact bootstrapStreams_concluded installs openings 0

end Engine

section Stores

theorem referenceClient_installsLast : InstallsLast referenceClient := by
  intro around page state
  have plain : StagesCursor referenceClient page state (stageReferenceSnapshot page state) :=
    LocalState.referenceRefinement.stage_cursor () page state
  change StagesCursor _ _ _ (underFence around.fence state _)
  unfold underFence
  split
  · exact .refused _
  · exact plain

theorem sqliteClient_installsLast : InstallsLast sqliteClient := by
  intro around page tables
  have plain : StagesCursor sqliteClient page tables
      (sqliteStore.stageSnapshot around.toSqliteSurroundings page tables) :=
    SqliteTables.refinement.stage_cursor around.toSqliteSurroundings page tables
  change StagesCursor _ _ _ (unlessLeased around.leased _ tables _)
  unfold unlessLeased
  split
  · exact .refused _
  · exact plain

/-- Of a store that holds the trusted cursor: no answers to requests cost its trust, and no streams do
exactly as long as a call that succeeds reports a cursor that upholds it. -/
def TrustsBootstrap {State Surroundings : Type} (config : ClientConfig) (store : ClientStore State Surroundings)
    (trusted : Cursor) : Prop :=
  ∀ state, store.loadCursor config.session.scopeId state = some trusted →
    (∀ admission answers, KeepsTrust store trusted state (bootstrap config store admission answers state).1) ∧
    ∀ admission openings,
      KeepsTrust store trusted state (bootstrapStreaming config store admission openings state).1 ↔
        ∀ outcome, (bootstrapStreaming config store admission openings state).2 = some (.ok outcome) →
          Upholds trusted outcome.cursor

theorem TrustsBootstrap.of_installsLast (installs : InstallsLast store)
    (bound : trusted.authorityId ≠ legacyUnbound) : TrustsBootstrap config store trusted := by
  intro state held
  refine ⟨fun admission answers => ?_, fun admission openings => ?_⟩
  · have concluded : Concluded store config.session.scopeId _ state
      (bootstrap config store admission answers state) := bootstrap_concluded installs admission answers
    apply (concluded.keepsTrust_iff held).mpr
    intro _ reported
    exact concluded.admitted reported trusted held bound
  · exact (bootstrapStreaming_concluded installs admission openings).keepsTrust_iff held

end Stores

def heldSnapshot {State Surroundings : Type} (store : ClientStore State Surroundings) (around : Surroundings)
    (state : State) : State :=
  (store.stageSnapshotFenced around (exampleSnapshot 1 2) state).1

def streamed {Surroundings : Type} (around : Surroundings) (page : BootstrapResponse) :
    List (Except TransportError (List (StreamEvent Surroundings))) :=
  [.ok [.page { page, around }]]

def foreignSnapshot : BootstrapResponse :=
  { exampleSnapshot 0 0 with cursor := { exampleCursor 0 0 with authorityId := ⟨2⟩ } }

end Aequora.Client
