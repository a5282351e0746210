import Aequora.Client.EpochChange
import Aequora.Server.Finality
import Aequora.Server.PagedPull

/-! The client's checks against the server's answers: what the server says to a client's own request
passes them, whatever others do to the store meanwhile. -/

namespace Aequora.Client

open Aequora.Base Aequora.Protocol Aequora.Store Aequora.Server InMemoryAuthoritativeStore RemoteChange

theorem takeChanges_length (changes : List RemoteChange) (within : taken ≤ limit) :
    taken + (takeChanges limit maxPayloadBytes taken bytes changes).1.length ≤ limit := by
  induction changes generalizing taken bytes with
  | nil => exact within
  | cons _ _ ih =>
    unfold takeChanges
    split
    · exact within
    · rename_i fits
      rw [List.length_cons, Nat.add_comm _ 1, ← Nat.add_assoc]
      exact ih (Nat.lt_of_le_of_ne within fun full => fits (.inl full))

/-- A request that is let through names its caller's tenant and continues the authority's timeline. -/
theorem checkRequest_admits (checked : SyncServer.checkRequest server environment auth request = .ok none) :
    request.session.tenantId = auth.tenantId ∧ ∀ cursor, request.cursor = some cursor →
      environment.authority.epoch = cursor.authorityEpoch ∧
        environment.authority.authorityId = cursor.authorityId := by
  unfold SyncServer.checkRequest Authority.validateCursor at checked
  split at checked
  · cases checked
  · split at checked
    · cases checked
    · split_ifs at checked
      cases found : request.cursor <;> grind

theorem admitted_of_continue (reported : (Pull.passage server pull store).result = .ok response)
    (continued : response.directive = .continue) :
    server.checkRequest pull.environment pull.auth pull.request = .ok none := by
  unfold Pull.passage SyncServer.process at reported
  split at reported
  · cases reported
    cases continued
  · split at reported
    · cases reported
    · cases reported
      exact absurd continued (SyncServer.checkRequest_early ‹_›)
    · assumption

theorem prepareRequest_eq_ok (prepared : prepareRequest config client call scheduling held = .ok request) :
    request.protocol = config.protocol ∧ request.session = config.session ∧
      request.cursor = client.loadCursor config.session.scopeId held ∧ request.limits = config.limits := by
  simp only [prepareRequest, bind_eq_ok_iff] at prepared
  obtain ⟨_, -, _, -, built⟩ := prepared
  cases built
  exact ⟨rfl, rfl, rfl, rfl⟩

/-- Whatever led to the store and whatever others do meanwhile, the client takes every answer to its
own request that lets it go on, unless the answer announces more and carries nothing. -/
theorem answer_accepted_iff (prepared : prepareRequest config client call scheduling held = .ok (Pull.request pull))
    (since : Server.Follows .default store) (room : (pull.passage server store).left.state.counter pull.key < u64Max)
    (encodes : ∀ response length, server.encodedLength response = .ok length →
      call.encodedResponse response = .ok length)
    (reported : (pull.passage server store).result = .ok response) (continued : response.directive = .continue) :
    Accepts config call.encodedResponse (client.loadCursor config.session.scopeId held)
        (submittedIds pull.request) response ↔
      (response.hasMore = true → response.changes ≠ [] ∨ CarriesResult response) := by
  obtain ⟨protocol, session, cursor, limits⟩ := prepareRequest_eq_ok prepared
  obtain ⟨tenant, timeline⟩ := checkRequest_admits (admitted_of_continue reported continued)
  obtain ⟨read, outcomes, met, -, fits⟩ := Pull.continues reported continued
  have paged : Paged server pull.auth pull.request read response :=
    .of_continues (met ▸ Pull.continues reported continued)
  have start : startOf pull.request = storedSequence pull.request.cursor := rfl
  rw [← cursor]
  have reached := paged.cursor
  rw [start] at reached
  constructor
  · intro accepts more
    by_contra nothing
    simp only [CarriesResult, not_or, not_not] at nothing
    obtain ⟨none, acknowledged, rejected, conflicts⟩ := nothing
    refine accepts.progresses ⟨more, ?_⟩
    simp [acknowledged, rejected, conflicts, none, reached, Base.reached]
  intro progress
  obtain ⟨first, rfl⟩ := since
  have answered : Answered pull.auth pull.request.operations _ response _ :=
    (SyncServer.process_ensures ((run_extends _ first).keyed SyncServer.wellKeyed_default)).among
      Onward.refl run_extends pull.blocks response reported continued
  -- The page is a part of a journal that stands in order.
  have ordered : Increasing sequence (read.state.scopeJournal pull.key) := by
    obtain ⟨whole, between⟩ := pull.passage_follows (Run.final step .default first)
    obtain ⟨actions, left⟩ := Server.Follows.trans ⟨first, rfl⟩ whole
    rw [left] at room
    have final := ((run_ordered _ actions room).2 (.initial _)).increasing
    rw [← left] at final
    exact final.sublist ((between read (List.mem_of_getLast? met)).2.scopeJournal _).sublist
  obtain ⟨rest, cut, -⟩ := paged.cut
  have listed : ∀ change ∈ response.changes,
      change ∈ beyond sequence (read.state.scopeJournal pull.key) (startOf pull.request) :=
    fun _ member => cut ▸ List.mem_append_left rest member
  have part : response.changes.Sublist (read.state.scopeJournal pull.key) := by
    apply (List.sublist_append_left _ rest).trans
    rw [← cut]
    exact List.filter_sublist
  have few : response.changes.length ≤ pull.request.limits.maxChanges := by
    have page : (server.changesFor pull.auth pull.request read).changes.length ≤
        min pull.request.limits.maxChanges server.config.maxPullChanges :=
      (Nat.zero_add _).symm.trans_le (takeChanges_length _ (Nat.zero_le _))
    exact (paged.taken.length_le.trans page).trans (min_le_left _ _)
  obtain ⟨length, encoded, short⟩ := paged.size
  obtain ⟨_, _, -, ⟨shape, -, -⟩⟩ := SyncServer.respond_fitted fits
  exact {
    directive := continued
    protocol := shape ▸ protocol
    limited := limits ▸ ⟨few, length, short.trans (min_le_left _ _), encodes response length encoded⟩
    scope := shape ▸ congrArg SessionMetadata.scopeId session
    timeline := by
      intro old found
      obtain ⟨epoch, authority⟩ := timeline old found
      exact shape ▸ ⟨epoch, fun _ => authority⟩
    distinct := answered.distinct
    answered operation := (answered.reported.count_eq operation).trans answered.distinct.count
    owned change member := by
      obtain ⟨ofTenant, ofScope⟩ := Prod.mk.inj (of_decide_eq_true (List.mem_filter.mp (part.subset member)).2)
      exact session ▸ ⟨ofTenant.trans tenant.symm, ofScope⟩
    above change member := start ▸ of_decide_eq_true (List.mem_filter.mp (listed change member)).2
    increasing := List.pairwise_map.mpr (ordered.sublist part)
    reached := by
      rw [reached, reached_eq_getLast, List.getLast?_map]
      cases response.changes.getLast? <;> rfl
    progresses stalled := by
      obtain ⟨more, acknowledged, rejected, conflicts, none, -⟩ := stalled
      simp only [List.length_eq_zero_iff] at acknowledged rejected conflicts none
      simpa [CarriesResult, acknowledged, rejected, conflicts, none] using progress more }

/-- A first pull, with a write of another before it meets the store. -/
def examplePull : Pull :=
  { examplePullFrom 0 0 [[exampleWrite 1 ⟨1⟩ none 1]] with
    request := exampleRequest none [] }

theorem answer_accepted_one_change : ∃ response, response.changes.map sequence = [1] ∧
    Accepts exampleConfig (fun response => .ok response.changes.length) none [] response := by
  obtain ⟨page, -, reported, continued, -, -, listed⟩ := examplePull.exists_page exampleServer .default
    (Server.exampleCursor 1) [1] (by decide +kernel)
  have prepared : prepareRequest exampleConfig referenceClient { newEpochCall exampleReferenceCall with
      encodedResponse := fun response => .ok response.changes.length } ⟨10, 1000⟩ .default =
        .ok examplePull.request := rfl
  refine ⟨page.response, listed, (answer_accepted_iff prepared ⟨[], rfl⟩ (by decide +kernel) ?_ reported
    continued).mpr fun _ => .inl ?_⟩
  · rintro _ _ ⟨⟩
    rfl
  · intro none
    rw [none] at listed
    cases listed

section Pulling
variable (config : ClientConfig) (encodedLength : SyncResponse → Except ClientError Nat)
  (store : LocalStore State Surroundings) (around : PulledPage → Surroundings)

/-- A page goes through the client's checks into its local store, or ends the pull. -/
def receivePage (client : State) (page : PulledPage) : Except ClientError State :=
  match reconcileExchange config encodedLength (store.reconcile (around page)) page.pull.request.cursor
    page.response (submittedIds page.pull.request) client with
  | (_, .error error) => .error error
  | (next, .ok _) => .ok next

variable {config encodedLength store around} (refinement : Refinement store)

theorem receivePage_view (received : receivePage config encodedLength store around client page = .ok next) :
    refinement.view next config.session.scopeId =
      (refinement.view client config.session.scopeId).reconcile page.response := by
  unfold receivePage reconcileExchange at received
  cases checked : validateResponse config encodedLength page.pull.request.cursor page.response
      (submittedIds page.pull.request) with
  | error _ => rw [checked] at received; cases received
  | ok _ =>
    obtain ⟨accepts, -⟩ := validateResponse_eq_ok.mp checked
    have viewed := refinement.reconcile (around page) page.response client config.session.scopeId fun change member =>
      ⟨(accepts.owned change member).2.trans accepts.scope.symm, Nat.zero_lt_of_lt (accepts.above change member)⟩
    rw [checked] at received
    rcases ended : store.reconcile (around page) page.response client with ⟨stored, _ | _⟩
    · rw [ended] at received; cases received
    · rw [ended] at received viewed
      cases received
      exact viewed.trans (if_pos ⟨rfl, accepts.scope⟩)

theorem foldl_reconcile_content (pages : List PulledPage) (replica : Replica) :
    (pages.foldl (fun replica page => replica.reconcile page.response) replica).content =
      (pages.flatMap fun page => page.response.changes).foldl
        (Marked.once entity snapshotEntity sequence) replica.content := by
  induction pages generalizing replica with
  | nil => rfl
  | cons page _ ih => rw [List.foldl_cons, ih, List.flatMap_cons, List.foldl_append]; rfl

/-- Whatever local store it has: a client that has pulled a scope page by page, while others wrote to
it, holds exactly what the changes up to its last cursor make of the scope. -/
theorem session_pulled (fresh : refinement.view client config.session.scopeId = Replica.empty)
    (session : Server.Session server key none .default pages last authority)
    (bounded : ∀ key, (authority.state.scopeJournal key).length ≤ u64Max)
    (received : pages.foldlM (receivePage config encodedLength store around) client = .ok final) (entity : EntityRef) :
    (refinement.view final config.session.scopeId).content.table entity =
      (authority.state.pulled key (last.elim 0 Cursor.sequence))[entity]? := by
  have numbered : NumberedFrom sequence 0 (authority.state.scopeJournal key) := by
    obtain ⟨_, rfl⟩ := session.follows
    exact (consistent_throughout bounded).final.numbered _
  have increasing := List.pairwise_map.mp (numbered.map_eq ▸ List.pairwise_lt_range')
  have upTo : pages.flatMap (fun page => page.response.changes) =
      (authority.state.scopeJournal key).filter fun change => change.sequence ≤ last.elim 0 Cursor.sequence := by
    refine (session.flatMap_changes increasing).2.trans (List.filter_congr fun change member => ?_)
    simp [(numbered.bounds member).1]
  have viewed : refinement.view final config.session.scopeId = pages.foldl
      (fun replica page => replica.reconcile page.response) (refinement.view client config.session.scopeId) :=
    foldlM_simulates (refinement.view · _) (fun _ _ _ _ => receivePage_view refinement) received
  rw [viewed, fresh, foldl_reconcile_content, upTo,
    Marked.foldl_once (numbered.nodup.sublist (List.filter_sublist.map _)), AuthoritativeState.pulled, replay,
    lookup_replayFrom, Marked.unmarked_eq fun _ _ => rfl]
  simp [Replica.empty]

end Pulling

def exampleReceive : LocalState → PulledPage → Except ClientError LocalState :=
  receivePage exampleConfig (fun _ => .ok 0) referenceStore fun _ => ()

theorem session_pulled_one_page : ∃ client, (LocalState.view client ⟨1⟩).content.table ⟨1, ⟨1⟩⟩ =
    ((examplePull.passage exampleServer .default).left.state.pulled (⟨1⟩, ⟨1⟩) 1)[(⟨1, ⟨1⟩⟩ : EntityRef)]? := by
  obtain ⟨⟨_, read, response⟩, rfl, reported, continued, met, moved, -⟩ := examplePull.exists_page exampleServer
    .default (Server.exampleCursor 1) [1] (by decide +kernel)
  have taken : (examplePull.passage exampleServer .default).result.toOption.map (fun response =>
      (exampleReceive .default ⟨examplePull, .default, response⟩).isOk) = some true := by decide +kernel
  have short : (examplePull.passage exampleServer .default).left.state.journal.length ≤ u64Max := by decide +kernel
  rw [reported] at taken
  cases received : exampleReceive .default ⟨examplePull, read, response⟩ with
  | error _ => cases (congrArg Except.isOk received).symm.trans (Option.some.inj taken)
  | ok client =>
    have ended : [(⟨examplePull, read, response⟩ : PulledPage)].foldlM exampleReceive .default = .ok client := by
      rw [List.foldlM_cons, received]
      rfl
    have pulled := session_pulled LocalState.referenceRefinement (LocalState.view_default _)
      (.answered rfl rfl reported continued met (.ended [])) (fun _ => (List.length_filter_le _ _).trans short) ended
    rw [moved] at pulled
    exact ⟨client, pulled _⟩

end Aequora.Client
