import Aequora.Server.Batch
import Aequora.Server.Retry
import Aequora.Server.StoreCalls
import Aequora.Store.JournalPages
import Aequora.Store.SnapshotReplay

/-! Pulling a scope page by page. Each exchange reads, at its last access, what lies above its
cursor and returns a first part of it, while others commit in between. -/

namespace Aequora.Server

open Aequora.Base Aequora.Protocol Aequora.Store Aequora.Authority InMemoryAuthoritativeStore SyncServer Program

def Outcomes.results (outcomes : Outcomes) : Nat :=
  outcomes.acknowledged.length + outcomes.rejected.length + outcomes.conflicts.length

theorem Outcomes.results_add (outcomes : Outcomes) (result : ProcessResult) :
    (outcomes.add result).results = outcomes.results + 1 := by
  cases result <;> simp only [add, results, List.length_append, List.length_singleton] <;>
    omega

abbrev startOf (request : SyncRequest) : Sequence := request.cursor.elim 0 Cursor.sequence

namespace SyncServer
variable (server : SyncServer)

/-- The page of changes an exchange reads at its end. -/
def changesFor (auth : AuthContext) (request : SyncRequest) (store : InMemoryAuthoritativeStore) : ChangePage :=
  store.readChangesAfter auth.tenantId request.session.scopeId (request.cursor.elim 0 Cursor.sequence)
    (min request.limits.maxChanges server.config.maxPullChanges) request.limits.maxResponseBytes

/-- What an exchange that continues answers with: one result for each operation, and the page read
at the last access, fitted. -/
def Continues (environment : Environment) (auth : AuthContext) (request : SyncRequest)
    (last : Option InMemoryAuthoritativeStore) (response : SyncResponse) : Prop :=
  ∃ read outcomes, last = some read ∧ outcomes.results = request.operations.length ∧
    server.fitResponse (respond environment request outcomes (server.changesFor auth request read))
      (startOf request) request.limits.maxResponseBytes = .ok response

variable {server}

/-- Every operation of the batch adds one result. -/
theorem processOperations_results (scopeId : SyncScopeId) (outcomes : Outcomes)
    (operations : List (Nat × OperationEnvelope)) (last : Option InMemoryAuthoritativeStore) :
    (server.processOperations environment auth scopeId outcomes operations).EndsIn (fun _ result =>
      ∀ processed, result = .ok processed →
        processed.results = outcomes.results + operations.length) last := by
  induction operations generalizing outcomes last with
  | nil =>
    intro processed reported
    cases reported
    rfl
  | cons _ _ ih =>
    apply endsIn_bind
    intro result last
    cases result with
    | error _ => exact fun _ reported => nomatch reported
    | ok result =>
      apply (ih (outcomes.add result) last).mono
      intro _ _ counted processed reported
      rw [counted processed reported, outcomes.results_add, List.length_cons]
      omega

theorem process_continues (environment : Environment) (request : SyncRequest)
    (last : Option InMemoryAuthoritativeStore) :
    (server.process environment auth request).EndsIn (fun last result =>
      ∀ response, result = .ok response → response.directive = .continue →
        server.Continues environment auth request last response) last := by
  have refused {error : ServerError} {last : Option InMemoryAuthoritativeStore} :
      (pure (.error error) : Program InMemoryAuthoritativeStore (Except ServerError SyncResponse)).EndsIn
        (fun last result => ∀ response, result = .ok response → response.directive = .continue →
          server.Continues environment auth request last response) last :=
    fun _ reported => nomatch reported
  have early {answer : SyncResponse} {last : Option InMemoryAuthoritativeStore}
      (other : answer.directive ≠ .continue) :
      (pure (.ok answer) : Program InMemoryAuthoritativeStore (Except ServerError SyncResponse)).EndsIn
        (fun last result => ∀ response, result = .ok response → response.directive = .continue →
          server.Continues environment auth request last response) last := by
    intro response reported continued
    cases reported
    exact absurd continued other
  unfold process
  split
  · exact early nofun
  · split
    · exact refused
    · exact early (checkRequest_early ‹_›)
    · apply endsIn_bind
      intro _ last
      split
      · exact early nofun
      · cases plan : planned request.operations with
        | error error => exact refused
        | ok ordered =>
          refine (processOperations_results _ _ ordered last).bind fun processed last counted => ?_
          cases processed with
          | error _ => exact refused
          | ok outcomes =>
            intro read _ reported _
            refine ⟨read, outcomes, rfl, ?_, reported⟩
            have every := (planned_perm plan).1.length_eq
            rw [List.length_map] at every
            rw [counted outcomes rfl, every]
            exact Nat.zero_add _

end SyncServer

/-- What a continuing answer says of the journal its page was read from. -/
structure Paged (server : SyncServer) (auth : AuthContext) (request : SyncRequest)
    (read : InMemoryAuthoritativeStore) (response : SyncResponse) : Prop where
  taken : response.changes <+: (server.changesFor auth request read).changes
  cut : ∃ rest, beyond RemoteChange.sequence
      (read.state.scopeJournal (auth.tenantId, request.session.scopeId)) (startOf request) =
        response.changes ++ rest ∧ (response.hasMore = true ↔ rest ≠ [])
  cursor : response.nextCursor.sequence = reached RemoteChange.sequence (startOf request) response.changes
  size : ∃ length, server.encodedLength response = .ok length ∧
    length ≤ min request.limits.maxResponseBytes server.config.responseBytes

variable {read : InMemoryAuthoritativeStore}

theorem Paged.of_continues (continues : server.Continues environment auth request (some read) response) :
    Paged server auth request read response := by
  obtain ⟨_, _, same, -, fits⟩ := continues
  cases same
  obtain ⟨_, dropped, parts, result⟩ := respond_fitted fits
  obtain ⟨left, whole, flag⟩ := read.readChangesAfter_cut
    (min request.limits.maxChanges server.config.maxPullChanges) request.limits.maxResponseBytes
    auth.tenantId request.session.scopeId (startOf request)
  have size := result.size
  cases result.shape
  refine ⟨⟨dropped, parts.symm⟩, ⟨dropped ++ left, ?_, ?_⟩, rfl, size⟩
  · rw [whole, ← List.append_assoc]
    exact congrArg (· ++ left) parts
  · rw [Bool.or_eq_true, flag, or_comm, Ne, Ne, List.append_eq_nil_iff, not_and_or]
    simp

/-- In a journal in order, more is announced exactly when a change lies above the returned cursor. -/
theorem Paged.hasMore_iff (paged : Paged server auth request read response)
    (increasing : Increasing RemoteChange.sequence
      (read.state.scopeJournal (auth.tenantId, request.session.scopeId))) :
    response.hasMore = true ↔
      ∃ change ∈ read.state.scopeJournal (auth.tenantId, request.session.scopeId),
        response.nextCursor.sequence < change.sequence := by
  obtain ⟨rest, cut, flag⟩ := paged.cut
  obtain ⟨below, above⟩ := increasing.around_reached cut
  rw [flag, paged.cursor]
  constructor
  · intro left
    obtain ⟨change, member⟩ := List.exists_mem_of_ne_nil rest left
    have listed := cut ▸ List.mem_append_right response.changes member
    exact ⟨change, (List.mem_filter.mp listed).1, above change member⟩
  · rintro ⟨change, member, higher⟩ rfl
    have start : startOf request ≤ reached RemoteChange.sequence (startOf request) response.changes := by
      apply le_reached_start
      intro _ taken
      have listed := cut ▸ List.mem_append_left [] taken
      exact of_decide_eq_true (List.mem_filter.mp listed).2
    have listed : change ∈ beyond RemoteChange.sequence
        (read.state.scopeJournal (auth.tenantId, request.session.scopeId)) (startOf request) :=
      List.mem_filter.mpr ⟨member, decide_eq_true (lt_of_le_of_lt start higher)⟩
    rw [cut, List.append_nil] at listed
    exact absurd higher (not_lt.mpr (below change listed))

/-- The later store is reached from the earlier one by calls. -/
def Follows (before after : InMemoryAuthoritativeStore) : Prop :=
  ∃ actions, after = Run.final step before actions

theorem Follows.refl (store : InMemoryAuthoritativeStore) : Follows store store := ⟨[], rfl⟩

theorem Follows.trans (left : Follows first second) (right : Follows second third) : Follows first third := by
  obtain ⟨before, rfl⟩ := left
  obtain ⟨after, rfl⟩ := right
  exact ⟨before ++ after, (Run.final_append ..).symm⟩

theorem Follows.scopeJournal (follows : Follows before after)
    (key : ScopeKey) : before.state.scopeJournal key <+: after.state.scopeJournal key := by
  obtain ⟨actions, rfl⟩ := follows
  exact (before.run_extends actions).journal.filter _

theorem ExchangeCall.follows {Answer : Type}
    {act : InMemoryAuthoritativeStore → InMemoryAuthoritativeStore × Answer}
    (call : ExchangeCall tenant Answer act) : Framed Follows Answer act := by
  intro store
  cases call with
  | look _ => exact .refl store
  | readChangesAfter => exact .refl store
  | @commitOperation commit _ => exact ⟨[.commitOperation commit], rfl⟩

structure Pull where
  environment : Environment
  auth : AuthContext
  request : SyncRequest
  blocks : List (List StoreAction)

namespace Pull

def key (pull : Pull) : ScopeKey := (pull.auth.tenantId, pull.request.session.scopeId)

def passage (server : SyncServer) (pull : Pull) (store : InMemoryAuthoritativeStore) :
    Passage InMemoryAuthoritativeStore (Except ServerError SyncResponse) :=
  (server.process pull.environment pull.auth pull.request).runAmong step store
    pull.blocks

theorem passage_follows (pull : Pull) (store : InMemoryAuthoritativeStore) :
    Follows store (pull.passage server store).left ∧ ∀ met ∈ (pull.passage server store).met,
      Follows store met ∧ Follows met (pull.passage server store).left :=
  ((server.process_calls pull.environment pull.auth pull.request).mono fun _ _ call =>
    call.follows).passage_framed Follows.refl Follows.trans (fun _ action => ⟨[action], rfl⟩) store pull.blocks

theorem continues {pull : Pull} (reported : (pull.passage server store).result = .ok response)
    (continued : response.directive = .continue) :
    server.Continues pull.environment pull.auth pull.request (pull.passage server store).met.getLast?
      response :=
  (process_continues pull.environment pull.request none).among step
    store pull.blocks response reported continued

end Pull

structure PulledPage where
  pull : Pull
  read : InMemoryAuthoritativeStore
  response : SyncResponse

/-- An exchange that is seen to continue has a page. -/
theorem Pull.exists_page (pull : Pull) (server : SyncServer) (store : InMemoryAuthoritativeStore)
    (cursor : Cursor) (sequences : List Sequence)
    (seen : (pull.passage server store).result.toOption.map (fun response =>
      (response.directive, response.nextCursor, response.changes.map RemoteChange.sequence)) =
        some (.continue, cursor, sequences)) :
    ∃ page : PulledPage, page.pull = pull ∧ (pull.passage server store).result = .ok page.response ∧
      page.response.directive = .continue ∧
      (pull.passage server store).met.getLast? = some page.read ∧
      page.response.nextCursor = cursor ∧ page.response.changes.map RemoteChange.sequence = sequences := by
  cases reported : (pull.passage server store).result with
  | error _ =>
    rw [reported] at seen
    cases seen
  | ok response =>
    rw [reported] at seen
    simp only [Except.toOption, Option.map_some, Option.some.injEq, Prod.mk.injEq] at seen
    obtain ⟨continued, reaches, listed⟩ := seen
    obtain ⟨read, -, met, -⟩ := continues reported continued
    exact ⟨⟨pull, read, response⟩, rfl, rfl, continued, met, reaches, listed⟩

/-- A page is a first part of what was read, its cursor is at its last change, it has its size, and
it announces more when there was more. -/
structure PulledPage.Faithful (server : SyncServer) (page : PulledPage) : Prop where
  taken : page.response.changes <+: (server.changesFor page.pull.auth page.pull.request page.read).changes
  cursor : page.response.nextCursor.sequence =
    page.response.changes.getLast?.elim (startOf page.pull.request) RemoteChange.sequence
  size : ∃ length, server.encodedLength page.response = .ok length ∧
    length ≤ min page.pull.request.limits.maxResponseBytes server.config.responseBytes
  hasMore : page.response.hasMore = true ↔
    ∃ change ∈ page.read.state.scopeJournal page.pull.key,
      page.response.nextCursor.sequence < change.sequence

/-- Exchanges on one scope, one after another: each continues at the cursor of the last response, a
failed one leaves the cursor, and others may call the store at any time. -/
inductive Session (server : SyncServer) (key : ScopeKey) : Option Cursor → InMemoryAuthoritativeStore →
    List PulledPage → Option Cursor → InMemoryAuthoritativeStore → Prop
  | ended {store : InMemoryAuthoritativeStore} (later : List StoreAction) :
      Session server key cursor store [] cursor (Run.final step store later)
  | failed {store final : InMemoryAuthoritativeStore}
      {pages : List PulledPage} {pull : Pull} {error : ServerError} (inScope : pull.key = key)
      (starts : pull.request.cursor = cursor) (refused : (pull.passage server store).result = .error error)
      (rest : Session server key cursor (pull.passage server store).left pages last final) :
      Session server key cursor store pages last final
  | answered {store final : InMemoryAuthoritativeStore}
      {pages : List PulledPage} {page : PulledPage} (inScope : page.pull.key = key)
      (starts : page.pull.request.cursor = cursor)
      (reported : (page.pull.passage server store).result = .ok page.response)
      (continued : page.response.directive = .continue)
      (met : (page.pull.passage server store).met.getLast? = some page.read)
      (rest : Session server key (some page.response.nextCursor) (page.pull.passage server store).left
        pages last final) :
      Session server key cursor store (page :: pages) last final

namespace Session
section
variable (session : Session server key cursor store pages last final)
include session

theorem follows : Follows store final := by
  induction session with
  | ended later => exact ⟨later, rfl⟩
  | failed inScope starts _ rest ih => exact (Pull.passage_follows _ _).1.trans ih
  | answered _ _ _ _ _ _ ih => exact (Pull.passage_follows _ _).1.trans ih

theorem paged {page : PulledPage}
    (member : page ∈ pages) :
    page.pull.key = key ∧ Follows page.read final ∧
      Paged server page.pull.auth page.pull.request page.read page.response := by
  induction session with
  | ended later => cases member
  | failed inScope starts _ rest ih => exact ih member
  | @answered _ _ store _ _ _ inScope _ reported continued met rest ih =>
    rcases List.mem_cons.mp member with rfl | later
    · refine ⟨inScope, ?_, ?_⟩
      · exact ((Pull.passage_follows page.pull store).2 page.read (List.mem_of_getLast? met)).2.trans
          rest.follows
      · exact Paged.of_continues (met ▸ Pull.continues reported continued)
    · exact ih later

/-- The pages are the window of the final journal between the first and the last cursor. -/
theorem flatMap_changes (increasing : Increasing RemoteChange.sequence (final.state.scopeJournal key)) :
    cursor.elim 0 Cursor.sequence ≤ last.elim 0 Cursor.sequence ∧
      pages.flatMap (fun page => page.response.changes) =
        window RemoteChange.sequence (final.state.scopeJournal key) (cursor.elim 0 Cursor.sequence)
          (last.elim 0 Cursor.sequence) := by
  induction session with
  | ended later => exact ⟨le_refl _, (window_self ..).symm⟩
  | failed inScope starts _ rest ih => exact ih increasing
  | @answered cursor _ _ final _ page inScope starts reported continued met rest ih =>
    obtain ⟨-, ahead, paged⟩ :=
      (Session.answered inScope starts reported continued met rest).paged List.mem_cons_self
    obtain ⟨upper, later⟩ := ih increasing
    subst inScope starts
    -- What was committed after the read comes after what was read.
    obtain ⟨appended, whole⟩ := ahead.scopeJournal page.pull.key
    obtain ⟨left, cut, -⟩ := paged.cut
    have split : beyond RemoteChange.sequence (final.state.scopeJournal page.pull.key)
        (startOf page.pull.request) = page.response.changes ++
          (left ++ beyond RemoteChange.sequence appended (startOf page.pull.request)) := by
      rw [← whole, beyond, List.filter_append, ← List.append_assoc]
      exact congrArg (· ++ _) cut
    have lower : startOf page.pull.request ≤ page.response.nextCursor.sequence := by
      rw [paged.cursor]
      apply le_reached_start
      intro _ member
      have listed := split ▸ List.mem_append_left _ member
      exact of_decide_eq_true (List.mem_filter.mp listed).2
    refine ⟨lower.trans upper, ?_⟩
    have first := increasing.window_reached split
    rw [← paged.cursor] at first
    rw [List.flatMap_cons, later, increasing.window_append lower upper, first]
    rfl

end

end Session

/-- A scope is pulled without loss: over any exchanges, each from the cursor of the last response,
and any calls in between, the pages together are the changes of the scope between the first and
the last cursor, in order, and each page is faithful to what was read. -/
theorem paged_pull_lossless {key : ScopeKey} {cursor last : Option Cursor}
    {store final : InMemoryAuthoritativeStore} {pages : List PulledPage} (ordered : store.state.Ordered key)
    (room : final.state.counter key < u64Max) (session : Session server key cursor store pages last final) :
    pages.flatMap (fun page => page.response.changes) =
        window RemoteChange.sequence (final.state.scopeJournal key) (cursor.elim 0 Cursor.sequence)
          (last.elim 0 Cursor.sequence) ∧
      Increasing RemoteChange.sequence (pages.flatMap fun page => page.response.changes) ∧
      ∀ page ∈ pages, page.Faithful server := by
  have increasing : Increasing RemoteChange.sequence (final.state.scopeJournal key) := by
    obtain ⟨actions, rfl⟩ := session.follows
    exact ((store.run_ordered actions room).2 ordered).increasing
  obtain ⟨-, whole⟩ := session.flatMap_changes increasing
  refine ⟨whole, ?_, ?_⟩
  · rw [whole]
    exact List.Pairwise.filter _ increasing
  · intro page member
    obtain ⟨inScope, ahead, paged⟩ := session.paged member
    subst inScope
    refine ⟨paged.taken, ?_, paged.size, ?_⟩
    · rw [paged.cursor, reached_eq_getLast]
    · exact paged.hasMore_iff (increasing.sublist (ahead.scopeJournal page.pull.key).sublist)

def examplePagingServer : SyncServer :=
  { exampleServer with
    encodedLength := fun response => .ok (2 * (response.changes.flatMap RemoteChange.payload).length) }

/-- Three changes of the scope, of which the first has been compacted away. -/
def exampleCompacted : InMemoryAuthoritativeStore :=
  ((Run.final step .default
    [exampleWrite 1 ⟨1⟩ none 1, exampleWrite 2 ⟨1⟩ (some 1) 2, exampleWrite 3 ⟨1⟩ (some 2) 3]).compactJournal
      ⟨1⟩ ⟨1⟩ 1).1

def exampleCursor (sequence : Sequence) : Cursor := (exampleEnvironment 1).authority.cursor ⟨1⟩ sequence

/-- A pull of the scope from a sequence. -/
def examplePullFrom (sequence : Sequence) (maxResponseBytes : Nat) (blocks : List (List StoreAction)) :
    Pull where
  environment := exampleEnvironment 1
  auth := exampleAuth
  request :=
    { protocol := 1
      requestId := ⟨1⟩
      session := ⟨⟨1⟩, ⟨1⟩, ⟨1⟩, ⟨1⟩, ⟨1⟩, []⟩
      cursor := some (exampleCursor sequence)
      operations := []
      limits := { maxChanges := 16, maxResponseBytes } }
  blocks

def exampleFirst : Pull := examplePullFrom 1 3 []

def exampleSecond : Pull := examplePullFrom 2 4096 [[], [exampleWrite 4 ⟨1⟩ (some 3) 4]]

/-- The three changes above the floor arrive in two pages, one of them committed meanwhile. -/
theorem paged_pull_lossless_two_pages : exampleCompacted.state.Ordered (⟨1⟩, ⟨1⟩) ∧ ∃ first second final,
      Session examplePagingServer (⟨1⟩, ⟨1⟩) (some (exampleCursor 1)) exampleCompacted [first, second]
        (some (exampleCursor 4)) final ∧
      first.response.changes.map RemoteChange.sequence = [2] ∧
      second.response.changes.map RemoteChange.sequence = [3, 4] ∧
      first.response.changes ++ second.response.changes =
        window RemoteChange.sequence (final.state.scopeJournal (⟨1⟩, ⟨1⟩)) 1 4 := by
  have ordered : exampleCompacted.state.Ordered (⟨1⟩, ⟨1⟩) :=
    compactJournal_ordered ((run_ordered _ _
      (by decide +kernel)).2 (.initial _)) ⟨1⟩ ⟨1⟩ 1
  refine ⟨ordered, ?_⟩
  obtain ⟨first, firstPull, firstReported, firstContinued, firstMet, firstCursor, firstListed⟩ :=
    exampleFirst.exists_page examplePagingServer exampleCompacted (exampleCursor 2) [2] (by decide +kernel)
  obtain ⟨second, secondPull, secondReported, secondContinued, secondMet, secondCursor, secondListed⟩ :=
    exampleSecond.exists_page examplePagingServer (exampleFirst.passage examplePagingServer
      exampleCompacted).left (exampleCursor 4) [3, 4] (by decide +kernel)
  have session : Session examplePagingServer (⟨1⟩, ⟨1⟩) (some (exampleCursor 1)) exampleCompacted
      [first, second] (some (exampleCursor 4)) (exampleSecond.passage examplePagingServer
        (exampleFirst.passage examplePagingServer exampleCompacted).left).left := by
    rw [← firstPull] at firstReported firstMet secondReported secondMet ⊢
    rw [← secondPull] at secondReported secondMet ⊢
    refine .answered (by rw [firstPull]; rfl) (by rw [firstPull]; rfl) firstReported firstContinued firstMet ?_
    refine .answered (by rw [secondPull]; rfl) (by rw [secondPull, firstCursor]; rfl) secondReported
      secondContinued secondMet ?_
    rw [secondCursor]
    exact .ended []
  refine ⟨first, second, _, session, firstListed, secondListed, ?_⟩
  have whole := (paged_pull_lossless ordered (by decide +kernel) session).1
  rwa [List.flatMap_cons, List.flatMap_cons, List.flatMap_nil, List.append_nil] at whole

section
variable (server : SyncServer) (auth : AuthContext) (request : SyncRequest) (read : InMemoryAuthoritativeStore)

/-- The next page can hold something: an operation is reported on, or what comes first above the
cursor, if anything does, is within the limits on the number of changes and on their payloads. -/
def Advances : Prop :=
  request.operations ≠ [] ∨ ∀ first, (beyond RemoteChange.sequence
      (read.state.scopeJournal (auth.tenantId, request.session.scopeId)) (startOf request)).head? = some first →
    0 < min request.limits.maxChanges server.config.maxPullChanges ∧
      saturatingAdd 0 first.payload.length ≤ request.limits.maxResponseBytes

/-- A page is read empty, though something lies above the cursor, exactly where it cannot advance. -/
theorem advances_iff : Advances server auth request read ↔ request.operations ≠ [] ∨
      ((server.changesFor auth request read).changes = [] →
        (server.changesFor auth request read).hasMore = false) := by
  obtain ⟨rest, cut, flag⟩ := read.readChangesAfter_cut
    (min request.limits.maxChanges server.config.maxPullChanges) request.limits.maxResponseBytes
    auth.tenantId request.session.scopeId (startOf request)
  have empty := read.readChangesAfter_eq_nil_iff
    (min request.limits.maxChanges server.config.maxPullChanges) request.limits.maxResponseBytes
    auth.tenantId request.session.scopeId (startOf request)
  unfold Advances changesFor
  refine or_congr_right ⟨?_, ?_⟩
  · intro advances nothing
    rw [← Bool.not_eq_true, flag, not_not]
    have none : (beyond RemoteChange.sequence
        (read.state.scopeJournal (auth.tenantId, request.session.scopeId)) (startOf request)).head? = none := by
      apply Option.eq_none_iff_forall_ne_some.mpr
      intro first found
      obtain ⟨room, fits⟩ := advances first found
      rcases empty.mp nothing first found with full | exceeds
      · exact absurd full (ne_of_gt room)
      · exact absurd fits (not_le.mpr exceeds)
    rw [List.head?_eq_none_iff.mp none] at cut
    exact (List.append_eq_nil_iff.mp cut.symm).2
  · intro exhausted _ found
    by_contra exceeded
    have nothing := empty.mpr fun other same => by
      cases found.symm.trans same
      rw [not_and_or, Nat.pos_iff_ne_zero, not_not, not_le] at exceeded
      exact exceeded
    rw [nothing] at cut
    have left : rest ≠ [] := by
      intro none
      rw [cut, none] at found
      cases found
    exact Bool.false_ne_true ((exhausted nothing).symm.trans (flag.mpr left))

end

/-- A response that continues and announces more makes progress exactly where it can advance; the
guard against an empty page is only met when fitting has dropped a change. -/
theorem continue_progress_iff {server : SyncServer} {pull : Pull} {store : InMemoryAuthoritativeStore}
    {response : SyncResponse} (reported : (pull.passage server store).result = .ok response)
    (continued : response.directive = .continue) :
    ∃ read, (pull.passage server store).met.getLast? = some read ∧
      ((response.hasMore = true → response.changes ≠ [] ∨ CarriesResult response) ↔
        Advances server pull.auth pull.request read) := by
  obtain ⟨read, outcomes, met, counted, fits⟩ := Pull.continues reported continued
  refine ⟨read, met, ?_⟩
  obtain ⟨kept, dropped, parts, result⟩ := respond_fitted fits
  have progress := result.progress
  cases result.shape
  have results : CarriesResult (respond pull.environment pull.request outcomes
      (server.changesFor pull.auth pull.request read)) ↔ pull.request.operations ≠ [] := by
    rw [← List.length_pos_iff, ← counted, Outcomes.results]
    simp only [CarriesResult, respond, ← List.length_pos_iff]
    omega
  rw [advances_iff]
  have page : (server.changesFor pull.auth pull.request read).changes = kept ++ dropped := parts
  constructor
  · intro progresses
    by_cases asked : pull.request.operations = []
    · right
      intro nothing
      rw [nothing, eq_comm, List.append_eq_nil_iff] at page
      by_contra more
      rcases progresses (Bool.or_eq_true_iff.mpr (.inl (Bool.not_eq_false _ ▸ more))) with some | carried
      · exact some page.1
      · exact results.mp carried asked
    · exact .inl asked
  · intro advances more
    by_cases nothing : (server.changesFor pull.auth pull.request read).changes = []
    · rw [nothing, eq_comm, List.append_eq_nil_iff] at page
      rcases advances with asked | exhausted
      · exact .inr (results.mpr asked)
      · -- Neither the read nor the fitting left anything over.
        rw [page.2] at more
        exact absurd more (by simpa [changesFor] using exhausted nothing)
    · exact progress (page ▸ nothing)

def exampleLarge : InMemoryAuthoritativeStore :=
  ((exampleServer.processOperation (exampleEnvironment 1) 0 exampleAuth
    (exampleOperation 1 (List.replicate 2000 0) []) ∅ ⟨1⟩).run .default).1

/-- With room for the payload the page holds the change. -/
theorem continue_progress_iff_large : (exampleLarge.state.scopeJournal (⟨1⟩, ⟨1⟩)).map RemoteChange.sequence = [1] ∧
      ∃ read response, ((examplePullFrom 0 4096 []).passage exampleServer exampleLarge).met.getLast? = some read ∧
        ((examplePullFrom 0 4096 []).passage exampleServer exampleLarge).result = .ok response ∧
        response.changes.map RemoteChange.sequence = [1] ∧
        Advances exampleServer exampleAuth (examplePullFrom 0 4096 []).request read := by
  refine ⟨by decide +kernel, ?_⟩
  obtain ⟨page, -, reported, continued, -, -, listed⟩ := (examplePullFrom 0 4096 []).exists_page exampleServer
    exampleLarge (exampleCursor 1) [1] (by decide +kernel)
  obtain ⟨read, met, progresses⟩ := continue_progress_iff reported continued
  refine ⟨read, page.response, met, reported, listed, progresses.mp fun _ => .inl ?_⟩
  intro nothing
  rw [nothing] at listed
  cases listed

/-- A valid request that allows fewer bytes than the payload of the next change is told to continue
with nothing in hand: no change, no result, and the cursor it came with. -/
theorem continue_without_progress :
    validateRequest (examplePullFrom 0 1024 []).request exampleServer.config.limits = .ok () ∧
      (exampleLarge.state.scopeJournal (⟨1⟩, ⟨1⟩)).map RemoteChange.sequence = [1] ∧
      ((examplePullFrom 0 1024 []).passage exampleServer exampleLarge).result.toOption.map (fun response =>
        (response.directive, response.hasMore, response.changes, response.nextCursor)) =
          some (.continue, true, [], exampleCursor 0) ∧
      ((examplePullFrom 0 1024 []).passage exampleServer exampleLarge).result.toOption.map (fun response =>
        (response.acknowledged, response.rejected, response.conflicts)) = some ([], [], []) := by
  decide +kernel

end Aequora.Server
