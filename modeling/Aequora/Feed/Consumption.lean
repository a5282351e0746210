import Aequora.Base.IncreasingLog
import Aequora.Base.Run
import Aequora.Feed.Batch

/-! What a consumer has seen: the acknowledged events are those it wants between the first and the
last cursor, whatever was filtered out. -/

namespace Aequora.Feed

open Aequora.Base Aequora.Protocol Run DurableEventReceipt FeedBatch

structure FeedJournal where
  events : List ChangeFeedEvent
  increasing : Increasing ChangeFeedEvent.sequence events

structure FeedAttempt where
  count : Nat
  request : AckRequest
  lease : ConsumerLease
  nowUnixMs : Nat

/-- The event is settled by a durable receipt of its own. -/
structure DurableEventReceipt.Settles (receipt : DurableEventReceipt) (event : ChangeFeedEvent) : Prop where
  eventId : receipt.eventId = event.eventId
  sequence : receipt.sequence = event.sequence
  durable : receipt.effectDurable = true
  result : receipt.result = .applied ∨ receipt.result = .ignored

theorem DurableEventReceipt.settles_of_not_misses {receipt : DurableEventReceipt}
    (hit : receipt.misses event = false) : receipt.Settles event := by
  simp only [misses, Bool.or_eq_false_iff, Bool.not_eq_false', decide_eq_false_iff_not, ne_eq, not_not,
    Bool.or_eq_true, beq_iff_eq] at hit
  obtain ⟨⟨⟨eventId, sequence⟩, durable⟩, result⟩ := hit
  exact ⟨eventId, sequence, durable, result⟩

namespace FeedBatch
variable {authorityEpoch : AuthorityEpoch} {scan : Scan} {events : List ChangeFeedEvent}

theorem Scan.accept_eq_ok (accepted : scan.accept registration event = .ok scanned) :
    scanned.accepted = scan.accepted ++ [event].filter registration.wants ∧ scanned.previous = scan.previous := by
  unfold accept at accepted
  split at accepted
  · next wanted =>
    obtain ⟨_, _, accepted⟩ := bind_eq_ok_iff.mp accepted
    obtain ⟨_, accepted⟩ := check_bind_eq_ok.mp accepted
    cases accepted
    simp [wanted]
  · next unwanted =>
    cases accepted
    simp [unwanted]

theorem Scan.next_eq_ok (read : scan.next registration authorityEpoch event = .ok scanned) :
    scanned.accepted = scan.accepted ++ [event].filter registration.wants ∧ scanned.previous = event.sequence := by
  obtain ⟨_, _, read⟩ := bind_eq_ok_iff.mp read
  obtain ⟨_, _, read⟩ := bind_eq_ok_iff.mp read
  obtain ⟨_, read⟩ := check_bind_eq_ok.mp read
  obtain ⟨_, read⟩ := check_bind_eq_ok.mp read
  exact accept_eq_ok read

theorem Scan.scan_eq_ok (read : events.foldlM (next registration authorityEpoch) scan = .ok scanned) :
    scanned.accepted = scan.accepted ++ events.filter registration.wants ∧
      scanned.previous = reached ChangeFeedEvent.sequence scan.previous events := by
  induction events generalizing scan with
  | nil =>
    cases read
    simp [reached]
  | cons _ _ ih =>
    rw [List.foldlM_cons] at read
    obtain ⟨_, first, read⟩ := bind_eq_ok_iff.mp read
    obtain ⟨accepted, previous⟩ := next_eq_ok first
    obtain ⟨acceptedRest, previousRest⟩ := ih read
    constructor
    · rw [acceptedRest, accepted, List.append_assoc, ← List.filter_append]
      rfl
    · rw [previousRest, previous]
      rfl

/-- What a batch that could be built says. -/
structure Built (cursor : ConsumerCursor) (run : List ChangeFeedEvent) (registration : ConsumerRegistration)
    (batch : FeedBatch) : Prop where
  consumerId : batch.consumerId = cursor.consumerId
  authorityId : batch.authorityId = cursor.authorityId
  authorityEpoch : batch.authorityEpoch = cursor.authorityEpoch
  after : batch.after = cursor.sequence
  events : batch.events = run.filter registration.wants
  through : batch.through = reached ChangeFeedEvent.sequence cursor.sequence run

theorem build_built (built : build cursor events registration = .ok batch) :
    Built cursor events registration batch := by
  obtain ⟨_, built⟩ := check_bind_eq_ok.mp built
  obtain ⟨_, built⟩ := check_bind_eq_ok.mp built
  obtain ⟨_, read, built⟩ := bind_eq_ok_iff.mp built
  obtain ⟨accepted, previous⟩ := Scan.scan_eq_ok read
  cases built
  exact ⟨rfl, rfl, rfl, rfl, by simpa using accepted, previous⟩

end FeedBatch

/-- What an accepted acknowledgement says. -/
structure AckRequest.Accepted (request : AckRequest) (batch : FeedBatch) (lease : ConsumerLease) (nowUnixMs : Nat)
    (next : ConsumerCursor) : Prop where
  consumerId : next.consumerId = batch.consumerId
  authorityId : next.authorityId = batch.authorityId
  authorityEpoch : next.authorityEpoch = batch.authorityEpoch
  sequence : next.sequence = batch.through
  fenced : request.fencingToken = lease.fencingToken
  active : lease.isActive nowUnixMs = true
  settled : List.Forall₂ Settles request.receipts batch.events

theorem AckRequest.validate_accepted {request : AckRequest} (valid : request.validate batch lease nowUnixMs = .ok next) :
    request.Accepted batch lease nowUnixMs next := by
  simp only [AckRequest.validate, ConsumerLease.validate, check_bind_eq_ok, require_eq_ok, not_or, ne_eq,
    not_not] at valid
  obtain ⟨⟨consumerId, authorityId, authorityEpoch, _⟩, ⟨_, token⟩, active,
    ⟨through, _, lengths, settled⟩, moved⟩ := valid
  cases moved
  refine ⟨consumerId, authorityId, authorityEpoch, through, token.symm, active, ?_⟩
  apply List.forall₂_iff_zip.mpr
  refine ⟨lengths, ?_⟩
  intro receipt event paired
  apply settles_of_not_misses
  simpa using fun missed => settled (List.any_eq_true.mpr ⟨(receipt, event), paired, missed⟩)

namespace FeedJournal
variable (journal : FeedJournal) (registration : ConsumerRegistration)

section
variable (cursor : ConsumerCursor) (attempt : FeedAttempt)

def read : List ChangeFeedEvent :=
  (beyond ChangeFeedEvent.sequence journal.events cursor.sequence).take attempt.count

/-- The batch of an attempt and the cursor it moves to, if it is built and acknowledged. -/
def accepts : Option (FeedBatch × ConsumerCursor) :=
  match build cursor (journal.read cursor attempt) registration with
  | .error _ => none
  | .ok batch =>
    match attempt.request.validate batch attempt.lease attempt.nowUnixMs with
    | .error _ => none
    | .ok next => some (batch, next)

def step : ConsumerCursor :=
  match journal.accepts registration cursor attempt with
  | some (_, next) => next
  | none => cursor

def acknowledged : List ChangeFeedEvent :=
  match journal.accepts registration cursor attempt with
  | some (batch, _) => batch.events
  | none => []

def receipted : List DurableEventReceipt :=
  match journal.accepts registration cursor attempt with
  | some _ => attempt.request.receipts
  | none => []

end

section Step
variable {journal registration}

/-- What one attempt does to the cursor, with what it acknowledges. -/
structure Advances (journal : FeedJournal) (registration : ConsumerRegistration) (cursor : ConsumerCursor)
    (attempt : FeedAttempt) : Prop where
  consumerId : (journal.step registration cursor attempt).consumerId = cursor.consumerId
  authorityId : (journal.step registration cursor attempt).authorityId = cursor.authorityId
  authorityEpoch : (journal.step registration cursor attempt).authorityEpoch = cursor.authorityEpoch
  sequence : cursor.sequence ≤ (journal.step registration cursor attempt).sequence
  acknowledged : journal.acknowledged registration cursor attempt =
    (window ChangeFeedEvent.sequence journal.events cursor.sequence
      (journal.step registration cursor attempt).sequence).filter registration.wants
  settled : List.Forall₂ Settles (journal.receipted registration cursor attempt)
    (journal.acknowledged registration cursor attempt)
  fenced : journal.step registration cursor attempt ≠ cursor →
    attempt.request.fencingToken = attempt.lease.fencingToken ∧ attempt.lease.isActive attempt.nowUnixMs = true

theorem accepts_eq_some {batch : FeedBatch}
    (accepted : journal.accepts registration cursor attempt = some (batch, next)) :
    Built cursor (journal.read cursor attempt) registration batch ∧
      attempt.request.Accepted batch attempt.lease attempt.nowUnixMs next := by
  unfold accepts at accepted
  split at accepted
  · cases accepted
  · next built =>
    split at accepted
    · cases accepted
    · next valid =>
      cases accepted
      exact ⟨build_built built, AckRequest.validate_accepted valid⟩

theorem step_advances (journal : FeedJournal) (registration : ConsumerRegistration) (cursor : ConsumerCursor)
    (attempt : FeedAttempt) : Advances journal registration cursor attempt := by
  cases accepted : journal.accepts registration cursor attempt with
  | none =>
    have stays : journal.step registration cursor attempt = cursor := by simp [step, accepted]
    have nothing : journal.acknowledged registration cursor attempt = [] := by simp [acknowledged, accepted]
    refine ⟨by rw [stays], by rw [stays], by rw [stays], by rw [stays], ?_, ?_, ?_⟩
    · rw [nothing, stays, window_self]
      rfl
    · rw [nothing, receipted, accepted]
      exact .nil
    · exact fun moved => absurd stays moved
  | some result =>
    obtain ⟨batch, next⟩ := result
    obtain ⟨built, valid⟩ := accepts_eq_some accepted
    have moves : journal.step registration cursor attempt = next := by simp [step, accepted]
    have events : journal.acknowledged registration cursor attempt = batch.events := by
      simp [acknowledged, accepted]
    have through : next.sequence =
        reached ChangeFeedEvent.sequence cursor.sequence (journal.read cursor attempt) :=
      valid.sequence.trans built.through
    rw [← moves] at valid through
    refine ⟨valid.consumerId.trans built.consumerId, valid.authorityId.trans built.authorityId,
      valid.authorityEpoch.trans built.authorityEpoch, ?_, ?_, ?_, fun _ => ⟨valid.fenced, valid.active⟩⟩
    · rw [through]
      apply le_reached_start
      intro _ member
      exact of_decide_eq_true (List.mem_filter.mp (List.mem_of_mem_take member)).2
    · rw [events, built.events, through]
      exact congrArg (List.filter registration.wants) (journal.increasing.take_beyond _ _)
    · rw [events, receipted, accepted]
      exact valid.settled

end Step

section
variable (cursor : ConsumerCursor) (attempts : List FeedAttempt)
include cursor attempts

theorem sequence_le_final : cursor.sequence ≤ (final (journal.step registration) cursor attempts).sequence :=
  le_final (fun cursor attempt => (step_advances journal registration cursor attempt).sequence) cursor attempts

theorem trace_acknowledged : trace (journal.step registration) (journal.acknowledged registration) cursor attempts =
      (window ChangeFeedEvent.sequence journal.events cursor.sequence
        (final (journal.step registration) cursor attempts).sequence).filter registration.wants := by
  induction attempts generalizing cursor with
  | nil => rw [final_nil, window_self]; rfl
  | cons attempt rest ih =>
    have advances := step_advances journal registration cursor attempt
    rw [trace, ih, advances.acknowledged, final_cons, ← List.filter_append]
    rw [← journal.increasing.window_append advances.sequence (journal.sequence_le_final registration _ rest)]

theorem trace_settled : List.Forall₂ Settles
      (trace (journal.step registration) (journal.receipted registration) cursor attempts)
      (trace (journal.step registration) (journal.acknowledged registration) cursor attempts) := by
  induction attempts generalizing cursor with
  | nil => exact .nil
  | cons attempt _ ih =>
    exact List.rel_append (step_advances journal registration cursor attempt).settled (ih _)

end

/-- Consumption is exact: over any attempts, the acknowledged events are the wanted journal events
between the first and the last cursor, in order, each settled by a durable receipt; the cursor only
moves forward, on its own timeline, and only for the holder of a current lease. -/
theorem consumption_exact (start : ConsumerCursor) (attempts : List FeedAttempt) :
    trace (journal.step registration) (journal.acknowledged registration) start attempts =
        (window ChangeFeedEvent.sequence journal.events start.sequence
          (final (journal.step registration) start attempts).sequence).filter registration.wants ∧
      Increasing ChangeFeedEvent.sequence
        (trace (journal.step registration) (journal.acknowledged registration) start attempts) ∧
      List.Forall₂ Settles
        (trace (journal.step registration) (journal.receipted registration) start attempts)
        (trace (journal.step registration) (journal.acknowledged registration) start attempts) ∧
      Permitted (journal.step registration)
        (fun cursor attempt =>
          let next := journal.step registration cursor attempt
          next.consumerId = cursor.consumerId ∧ next.authorityId = cursor.authorityId ∧
            next.authorityEpoch = cursor.authorityEpoch ∧ cursor.sequence ≤ next.sequence ∧
            (next ≠ cursor → attempt.request.fencingToken = attempt.lease.fencingToken ∧
              attempt.lease.isActive attempt.nowUnixMs = true))
        start attempts := by
  refine ⟨journal.trace_acknowledged registration start attempts, ?_,
    journal.trace_settled registration start attempts, ?_⟩
  · rw [trace_acknowledged]
    exact List.Pairwise.filter _ (List.Pairwise.filter _ journal.increasing)
  · apply permitted_iff_cut.mpr
    intro before attempt _ _
    have advances := step_advances journal registration (final (journal.step registration) start before) attempt
    exact ⟨advances.consumerId, advances.authorityId, advances.authorityEpoch, advances.sequence, advances.fenced⟩

end FeedJournal

def exampleEvent (sequence : Sequence) (tenant : BitVec 128) : ChangeFeedEvent where
  eventId := ⟨tenant⟩
  authorityEpoch := 1
  sequence
  tenantId := ⟨tenant⟩
  entity := { entityType := 1, entityId := ⟨1⟩ }
  entityVersion := 1
  eventKind := ⟨1, by decide⟩
  schemaVersion := ⟨1, by decide⟩
  payload := []
  payloadDigest := Vector.replicate 32 0
  operationId := ⟨1⟩
  operationKind := none
  correlationId := ⟨1⟩
  occurredAt := { unixSeconds := 0, nanoseconds := 0 }

/-- A consumer of the first tenant only. -/
def exampleRegistration : ConsumerRegistration where
  consumerId := ⟨1⟩
  name := "index"
  filter := { tenants := .allAuthorized, entityTypes := ∅, eventKinds := ∅, operationKinds := ∅ }
  ordering := .global
  retention := .rebuildIfBehind
  failure := .stop
  rebuildability := .canRebuild
  bootstrap := .fromBeginning
  visibility := .internalOnly
  authorization := { serviceIdentity := "index", tenants := {⟨1⟩}, allowedVisibility := {.internalOnly} }
  batch := { maxEvents := 8, maxBytes := 8, maxProcessingMs := 1, maxConcurrency := 1 }
  maxRetentionPinAgeMs := none

def exampleCursor (sequence : Sequence) : ConsumerCursor where
  consumerId := ⟨1⟩
  authorityId := ⟨1⟩
  authorityEpoch := 1
  sequence

def exampleAttempt : FeedAttempt where
  count := 2
  request :=
    { expected := exampleCursor 0
      ackThrough := 7
      receipts := [{ eventId := ⟨1⟩, sequence := 4, result := .applied, effectDurable := true }]
      projectionAppliedThrough := 7
      fencingToken := ⟨1, by decide⟩ }
  lease := { consumerId := ⟨1⟩, workerId := ⟨1⟩, fencingToken := ⟨1, by decide⟩, expiresAtUnixMs := 10 }
  nowUnixMs := 9

/-- The event of another tenant is passed over and still moves the cursor. -/
example :
    let journal : FeedJournal := ⟨[exampleEvent 4 1, exampleEvent 7 2, exampleEvent 9 1], by simp [Increasing, exampleEvent]⟩
    journal.step exampleRegistration (exampleCursor 0) exampleAttempt = exampleCursor 7 ∧
      journal.acknowledged exampleRegistration (exampleCursor 0) exampleAttempt = [exampleEvent 4 1] :=
  ⟨rfl, rfl⟩

end Aequora.Feed
